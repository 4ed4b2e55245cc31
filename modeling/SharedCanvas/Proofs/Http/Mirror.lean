import SharedCanvas.Http.Site
import SharedCanvas.Proofs.Http.Head
import SharedCanvas.Proofs.Session.Verdict

namespace SharedCanvas.Site

open Text Request

def statusLine (status : Nat) (reason : String) : List Char :=
  ("HTTP/1.1 " ++ toString status ++ " " ++ reason).toList

def fields (contentType : String) (length : Nat) : List (String × String) :=
  [("Content-Type", contentType), ("Content-Length", toString length), ("Connection", "close")]

theorem head_eq (status : Nat) (reason contentType : String) (length : Nat) :
    head status reason contentType length = Bytes.ofString (String.ofList
      ((statusLine status reason :: (fields contentType length).map plainLine).flatMap
        (· ++ Text.crlf) ++ Text.crlf)) := by
  refine congrArg Bytes.ofString (String.toList_injective ?_)
  simp [statusLine, fields, plainLine, Text.crlf]

/-- Texts that stay on their lines of a head. -/
structure OneLine (reason contentType : String) : Prop where
  reason : '\r' ∉ reason.toList
  contentType : '\r' ∉ contentType.toList

theorem oneLine_reason (r : Refusal) : OneLine r.reason "text/plain; charset=utf-8" := by
  cases r <;> exact ⟨by decide, by decide⟩

theorem oneLine_mimeType (path : Bytes) : OneLine "OK" (mimeType path) := by
  refine ⟨by decide, ?_⟩
  have ht : ∀ m ∈ mimeTypes, '\r' ∉ m.2.toList := by decide +kernel
  unfold mimeType
  split
  · decide
  · split
    · rename_i hm
      exact ht _ (List.mem_of_find?_eq_some hm)
    · decide

section
variable {reason contentType : String} (h : OneLine reason contentType) (status length : Nat)
include h

theorem OneLine.cr_not_mem : '\r' ∉ statusLine status reason := by
  have h1 : '\r' ∉ "HTTP/1.1 ".toList := by decide
  have h2 : '\r' ∉ " ".toList := by decide
  simp only [statusLine, String.toList_append, List.mem_append, not_or]
  exact ⟨⟨⟨h1, (isWord_toString status).cr_not_mem⟩, h2⟩, h.reason⟩

theorem OneLine.isPlain : ∀ f ∈ fields contentType length, IsPlain f := by
  simp only [fields, List.forall_mem_cons]
  exact ⟨isPlain_of (by decide) (by decide) h.contentType,
    isPlain_of (by decide) (by decide) (isWord_toString length).cr_not_mem,
    isPlain_of (by decide) (by decide) (by decide), by simp⟩

theorem OneLine.headEnd?_eq (body : Bytes) :
    Handshake.headEnd? (head status reason contentType length ++ body) =
      some (head status reason contentType length).length := by
  refine Handshake.headEnd?_head (List.forall_mem_cons.2 ⟨⟨?_, h.cr_not_mem status⟩, ?_⟩)
    (head_eq status reason contentType length) body
  · simp [statusLine]
  · intro l hl
    obtain ⟨f, hf, rfl⟩ := List.mem_map.1 hl
    exact ⟨by simp [plainLine], (h.isPlain length f hf).cr_not_mem⟩

theorem OneLine.responseHeader?_eq :
    Handshake.responseHeader? (head status reason contentType length)
    "Content-Length" = some (toString length) := by
  have h1 : sameIgnoringCase "Content-Type" "Content-Length" = false := by decide
  have ht : String.ofList (trim (toString length).toList) = toString length := by
    rw [(isWord_toString length).isTrimmed.trim_eq, String.ofList_toList]
  rw [head_eq, Handshake.responseHeader?_head (h.cr_not_mem status) (h.isPlain length)
    (by simp [fields, maxHeaders])]
  simp only [header?, fields, trimmed, ht, List.map_cons, List.find?_cons, h1,
    sameIgnoringCase_refl, Option.map_some]

end

def note (r : Refusal) : Bytes :=
  Bytes.ofString (toString r.status ++ " " ++ r.reason ++ "\n")

theorem refuse_eq (r : Refusal) : refuse r =
    head r.status r.reason "text/plain; charset=utf-8" (note r).length ++ note r := rfl

theorem note_ne_nil (r : Refusal) : note r ≠ [] := by
  cases r <;> decide +kernel

/-- The target is a file that can be read. -/
def Serves (site : Site) (target : String) : Prop :=
  ∃ path body, site.resolve target = .ok path ∧ site.files.read path = .ok body

/-- A head, and the content that it announces. -/
inductive IsPage : Bytes → Bytes → Prop
  | mk {reason contentType : String} (h : OneLine reason contentType) (status : Nat)
      (body : Bytes) : IsPage (head status reason contentType body.length) body

theorem isPage_refuse (r : Refusal) :
    ∃ front, IsPage front (note r) ∧ refuse r = front ++ note r :=
  ⟨_, .mk (oneLine_reason r) r.status (note r), refuse_eq r⟩

section
variable (site : Site) {get headed : Request}

theorem answers (hg : sameIgnoringCase get.method "GET" = true)
    (hh : sameIgnoringCase headed.method "HEAD" = true) (ht : headed.path = get.path) :
    ∃ front body, IsPage front body ∧ site.respond get = front ++ body ∧
      ((site.Serves get.path ∧ site.respond headed = front) ∨
        (¬ site.Serves get.path ∧ body ≠ [] ∧ site.respond headed = front ++ body)) := by
  have hn : sameIgnoringCase get.method "HEAD" = false := by
    rw [sameIgnoringCase, beq_iff_eq] at hg
    rw [sameIgnoringCase, hg]
    decide
  rw [respond, respond, ht, hg, hh, hn]
  cases hr : site.resolve get.path with
  | error r =>
    obtain ⟨front, hp, he⟩ := isPage_refuse r
    refine ⟨front, note r, hp, he, .inr ⟨?_, note_ne_nil r, he⟩⟩
    rintro ⟨path, body, hp, -⟩
    rw [hr] at hp
    cases hp
  | ok path =>
    dsimp only
    cases hb : site.files.read path with
    | error e =>
      obtain ⟨front, hp, he⟩ := isPage_refuse .notFound
      refine ⟨front, note .notFound, hp, he, .inr ⟨?_, note_ne_nil _, he⟩⟩
      rintro ⟨other, body, hp, hread⟩
      rw [hr, Except.ok.injEq] at hp
      rw [← hp, hb] at hread
      cases hread
    | ok body =>
      exact ⟨_, body, .mk (oneLine_mimeType path) 200 body, rfl,
        .inl ⟨⟨path, body, hr, hb⟩, List.append_nil _⟩⟩

/-- What is answered to GET is one head, which ends at the first empty line and says how many bytes
come behind it. The answer to HEAD is that head exactly if the target is a file that can be read;
else it is what GET is answered, with all that comes behind the head. -/
theorem respond_head_eq_iff (hg : sameIgnoringCase get.method "GET" = true)
    (hh : sameIgnoringCase headed.method "HEAD" = true) (ht : headed.path = get.path) :
    ∃ n, IsLeast (Handshake.markEnds (site.respond get)) n ∧
      Handshake.responseHeader? ((site.respond get).take n) "Content-Length" =
        some (toString ((site.respond get).drop n).length) ∧
      (site.respond headed = (site.respond get).take n ↔ site.Serves get.path) ∧
      (site.Serves get.path ∨ site.respond headed = site.respond get) := by
  obtain ⟨front, body, ⟨hline, status, _⟩, hget, hhead⟩ := answers site hg hh ht
  refine ⟨_, Handshake.isLeast_of_headEnd? (hget ▸ hline.headEnd?_eq status _ body), ?_, ?_, ?_⟩
  · rw [hget, List.take_left, List.drop_left]
    exact hline.responseHeader?_eq status body.length
  · rw [hget, List.take_left]
    rcases hhead with ⟨hs, hhead⟩ | ⟨hs, hne, hhead⟩
    · exact iff_of_true hhead hs
    · refine iff_of_false ?_ hs
      rw [hhead, List.append_right_eq_self]
      exact hne
  · rcases hhead with ⟨hs, -⟩ | ⟨-, -, hhead⟩
    · exact .inl hs
    · exact .inr (hhead.trans hget.symm)

end

/-- A page with an empty line in it. One of the methods is in small letters. -/
theorem respond_head_eq_iff_page :
    let site : Site := ⟨Bytes.ofString "/w", ⟨[([Bytes.ofString "w"], .directory),
      ([Bytes.ofString "w", Bytes.ofString "index.html"], .file (Bytes.ofString "hi\r\n\r\n"))]⟩⟩
    let get : Request := ⟨"get", "/?v=2", "HTTP/1.1", []⟩
    let headed : Request := ⟨"HEAD", "/?v=2", "HTTP/1.1", [("Host", "h")]⟩
    sameIgnoringCase get.method "GET" = true ∧ sameIgnoringCase headed.method "HEAD" = true ∧
      headed.path = get.path ∧
      ∃ n, IsLeast (Handshake.markEnds (site.respond get)) n ∧
        (site.respond get).drop n = Bytes.ofString "hi\r\n\r\n" ∧
        site.respond headed = (site.respond get).take n := by
  intro site get headed
  have hg : sameIgnoringCase get.method "GET" = true := by decide
  have hh : sameIgnoringCase headed.method "HEAD" = true := by decide
  obtain ⟨n, hn, -, hi, -⟩ := respond_head_eq_iff site hg hh rfl
  have hl : IsLeast (Handshake.markEnds (site.respond get)) 97 :=
    Handshake.isLeast_of_headEnd? (by decide +kernel)
  have hs : site.Serves get.path := ⟨Bytes.ofString "/w/index.html", Bytes.ofString "hi\r\n\r\n",
    by decide +kernel, by decide +kernel⟩
  refine ⟨hg, hh, rfl, n, hn, ?_, hi.2 hs⟩
  rw [hn.unique hl]
  decide +kernel

/-- A file that is not there: HEAD is answered with what GET is answered, content and all. -/
theorem refused_head_has_content : ∃ (site : Site) (get headed : Request) (n : Nat),
    get.method = "GET" ∧ headed.method = "HEAD" ∧ headed.path = get.path ∧
      IsLeast (Handshake.markEnds (site.respond get)) n ∧
      (site.respond headed).drop n = Bytes.ofString "404 Not Found\n" ∧
      site.respond headed ≠ (site.respond get).take n := by
  refine ⟨⟨Bytes.ofString "/w", .empty⟩, ⟨"GET", "/nope", "HTTP/1.1", []⟩,
    ⟨"HEAD", "/nope", "HTTP/1.1", []⟩, _, rfl, rfl, rfl,
    Handshake.isLeast_of_headEnd? (by decide +kernel : _ = some 106), ?_, ?_⟩
  · decide +kernel
  · decide +kernel

end SharedCanvas.Site
