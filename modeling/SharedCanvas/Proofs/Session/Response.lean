import SharedCanvas.Proofs.Session.Greeting
import SharedCanvas.Proofs.Text.Encoded

namespace SharedCanvas

namespace Base64

theorem digit_mem (n : Nat) : digit n ∈ '=' :: alphabet := by
  rw [digit, List.getD_eq_getElem?_getD]
  cases h : alphabet[n]? with
  | none => exact List.mem_cons_self
  | some c => exact List.mem_cons_of_mem _ (List.mem_of_getElem? h)

theorem forall_mem_encode (bs : Bytes) : ∀ c ∈ encode bs, c ∈ '=' :: alphabet := by
  have hd := digit_mem
  have hn : ∀ c ∈ ([] : List Char), c ∈ '=' :: alphabet := by simp
  fun_induction encode bs with
  | case1 x y z rest ih =>
    simp only [List.forall_mem_cons]
    exact ⟨hd _, hd _, hd _, hd _, ih⟩
  | case2 x y =>
    simp only [List.forall_mem_cons]
    exact ⟨hd _, hd _, hd _, List.mem_cons_self, hn⟩
  | case3 x =>
    simp only [List.forall_mem_cons]
    exact ⟨hd _, hd _, List.mem_cons_self, List.mem_cons_self, hn⟩
  | case4 => exact hn

theorem utf8EncodeChar_of_mem {c : Char} (h : c ∈ '=' :: alphabet) :
    (String.utf8EncodeChar c).length = 1 ∧ 0x0D ∉ String.utf8EncodeChar c := by
  have ha : ('=' :: alphabet).all (fun c =>
      (String.utf8EncodeChar c).length = 1 ∧ 0x0D ∉ String.utf8EncodeChar c) = true := by
    decide +kernel
  exact of_decide_eq_true (List.all_eq_true.1 ha c h)

theorem length_encode (bs : Bytes) : (encode bs).length = 4 * ((bs.length + 2) / 3) := by
  fun_induction encode bs with
  | case1 x y z rest ih =>
    simp only [List.length_cons, ih]
    omega
  | case2 x y => simp
  | case3 x => simp
  | case4 => simp

end Base64

namespace Handshake

def cr : UInt8 := 0x0D

def crlf : Bytes := [cr, 0x0A]

def headOf (lines : List Bytes) : Bytes := lines.flatMap (· ++ crlf) ++ crlf

/-- A line of a head: it is not empty, and no end of a line is in it. -/
structure IsLine (line : Bytes) : Prop where
  ne_nil : line ≠ []
  plain : cr ∉ line

theorem headEndFrom_append_of_plain {line : Bytes} (h : cr ∉ line) (seen : Nat) (rest : Bytes) :
    headEndFrom seen (line ++ rest) = headEndFrom (seen + line.length) rest := by
  induction line generalizing seen with
  | nil => rfl
  | cons b line ih =>
    rw [List.mem_cons, not_or] at h
    have hb : (b :: (line ++ rest)).take 4 ≠ [0x0D, 0x0A, 0x0D, 0x0A] := by
      intro ht
      rw [List.take_succ_cons, List.cons.injEq] at ht
      exact h.1 ht.1.symm
    rw [List.cons_append, headEndFrom_cons, if_neg hb, ih h.2, List.length_cons]
    congr 1
    omega

theorem headEndFrom_crlf_append {b : UInt8} (h : b ≠ cr) (seen : Nat) (rest : Bytes) :
    headEndFrom seen (crlf ++ b :: rest) = headEndFrom (seen + 2) (b :: rest) := by
  have h1 : (cr :: 0x0A :: b :: rest).take 4 ≠ [0x0D, 0x0A, 0x0D, 0x0A] := by
    intro ht
    simp only [List.take_succ_cons, List.cons.injEq] at ht
    exact h ht.2.2.1
  have h2 : ((0x0A : UInt8) :: b :: rest).take 4 ≠ [0x0D, 0x0A, 0x0D, 0x0A] := by
    intro ht
    rw [List.take_succ_cons, List.cons.injEq] at ht
    exact absurd ht.1 (by decide)
  change headEndFrom seen (cr :: 0x0A :: b :: rest) = _
  rw [headEndFrom_cons, if_neg h1, headEndFrom_cons, if_neg h2]

theorem headEndFrom_headOf {line : Bytes} {lines : List Bytes}
    (h : ∀ l ∈ line :: lines, IsLine l) (seen : Nat) (rest : Bytes) :
    headEndFrom seen (headOf (line :: lines) ++ rest) =
      some (seen + (headOf (line :: lines)).length) := by
  induction lines generalizing line seen with
  | nil =>
    have hl := (h line List.mem_cons_self).plain
    have he : headOf [line] ++ rest = line ++ 0x0D :: 0x0A :: 0x0D :: 0x0A :: rest := by
      simp [headOf, crlf, cr]
    rw [he, headEndFrom_append_of_plain hl, headEndFrom, headOf]
    simp [crlf, Nat.add_assoc]
  | cons next lines ih =>
    have hl := (h line List.mem_cons_self).plain
    have hn := h next (List.mem_cons_of_mem _ List.mem_cons_self)
    have hih := ih (fun l hm => h l (List.mem_cons_of_mem _ hm)) (seen + line.length + 2)
    have he : headOf (line :: next :: lines) = line ++ (crlf ++ headOf (next :: lines)) := by
      simp [headOf]
    -- The next line begins with some byte, and that one is no end of a line.
    obtain ⟨b, more, hb⟩ : ∃ b more, headOf (next :: lines) ++ rest = b :: more ∧ b ≠ cr := by
      obtain ⟨b, tail, rfl⟩ := List.exists_cons_of_ne_nil hn.ne_nil
      refine ⟨b, tail ++ crlf ++ headOf lines ++ rest, by simp [headOf], ?_⟩
      rintro rfl
      exact hn.plain List.mem_cons_self
    rw [he, List.append_assoc, List.append_assoc, headEndFrom_append_of_plain hl, hb.1,
      headEndFrom_crlf_append hb.2, ← hb.1, hih]
    simp [crlf]
    omega

def responseLines (accept : String) : List Bytes :=
  [Bytes.ofString "HTTP/1.1 101 Switching Protocols", Bytes.ofString "Upgrade: websocket",
    Bytes.ofString "Connection: Upgrade",
    Bytes.ofString "Sec-WebSocket-Accept: " ++ Bytes.ofString accept]

theorem upgradeResponse_eq (accept : String) :
    upgradeResponse accept = headOf (responseLines accept) := by
  have h1 : Bytes.ofString "HTTP/1.1 101 Switching Protocols\r\n" =
      Bytes.ofString "HTTP/1.1 101 Switching Protocols" ++ crlf := by decide +kernel
  have h2 : Bytes.ofString "Upgrade: websocket\r\n" =
      Bytes.ofString "Upgrade: websocket" ++ crlf := by decide +kernel
  have h3 : Bytes.ofString "Connection: Upgrade\r\n" =
      Bytes.ofString "Connection: Upgrade" ++ crlf := by decide +kernel
  have h4 : Bytes.ofString "\r\n" = crlf := by decide +kernel
  simp only [upgradeResponse, Bytes.ofString_append, h1, h2, h3, h4, headOf, responseLines,
    List.flatMap_cons, List.flatMap_nil, List.append_assoc, List.nil_append]

theorem plain_acceptKey (key : String) : cr ∉ Bytes.ofString (acceptKey key) := by
  rw [acceptKey, Bytes.ofString_ofList, List.mem_flatMap]
  rintro ⟨c, hc, h⟩
  exact (Base64.utf8EncodeChar_of_mem (Base64.forall_mem_encode _ c hc)).2 h

theorem length_acceptKey (key : String) : (Bytes.ofString (acceptKey key)).length = 28 := by
  have hc := fun bs c hc => (Base64.utf8EncodeChar_of_mem (Base64.forall_mem_encode bs c hc)).1
  rw [acceptKey, Bytes.ofString_ofList, List.length_flatMap, List.map_congr_left (hc _),
    List.map_const', List.sum_replicate_nat, Base64.length_encode, Sha1.length_digest]

theorem isLine_responseLines (key : String) : ∀ l ∈ responseLines (acceptKey key), IsLine l := by
  have h1 : IsLine (Bytes.ofString "HTTP/1.1 101 Switching Protocols") :=
    ⟨by decide +kernel, by decide +kernel⟩
  have h2 : IsLine (Bytes.ofString "Upgrade: websocket") := ⟨by decide +kernel, by decide +kernel⟩
  have h3 : IsLine (Bytes.ofString "Connection: Upgrade") := ⟨by decide +kernel, by decide +kernel⟩
  have h4 : IsLine (Bytes.ofString "Sec-WebSocket-Accept: ") :=
    ⟨by decide +kernel, by decide +kernel⟩
  have h5 : IsLine (Bytes.ofString "Sec-WebSocket-Accept: " ++ Bytes.ofString (acceptKey key)) :=
    ⟨List.append_ne_nil_of_left_ne_nil h4.ne_nil _,
      fun h => (List.mem_append.1 h).elim h4.plain (plain_acceptKey key)⟩
  simp only [responseLines, List.forall_mem_cons]
  exact ⟨h1, h2, h3, h5, nofun⟩

/-- The head of the answer to a request to upgrade is the whole of the answer. -/
theorem headEnd?_upgradeResponse (key : String) (rest : Bytes) :
    headEnd? (upgradeResponse (acceptKey key) ++ rest) =
      some (upgradeResponse (acceptKey key)).length := by
  have hl := isLine_responseLines key
  rw [upgradeResponse_eq, headEnd?]
  rw [responseLines] at hl ⊢
  rw [headEndFrom_headOf hl, Nat.zero_add]

theorem length_upgradeResponse (key : String) : (upgradeResponse (acceptKey key)).length = 129 := by
  have h1 : (Bytes.ofString "HTTP/1.1 101 Switching Protocols").length = 32 := by decide +kernel
  have h2 : (Bytes.ofString "Upgrade: websocket").length = 18 := by decide +kernel
  have h3 : (Bytes.ofString "Connection: Upgrade").length = 19 := by decide +kernel
  have h4 : (Bytes.ofString "Sec-WebSocket-Accept: ").length = 22 := by decide +kernel
  simp only [upgradeResponse_eq, headOf, responseLines, List.flatMap_cons, List.flatMap_nil,
    List.length_append, List.length_nil, h1, h2, h3, h4, length_acceptKey, crlf, List.length_cons]

theorem exists_key_of_judge {r : Request} {n m : Nat} {response : Bytes}
    (h : judge r n = .ok (.upgraded response m)) :
    ∃ key, key? r = some key ∧ response = upgradeResponse (acceptKey key) := by
  unfold judge at h
  split at h
  · simp at h
  · split at h
    · simp at h
    · split at h
      · simp at h
      · rename_i key hk
        rw [Except.ok.injEq, Verdict.upgraded.injEq] at h
        exact ⟨key, hk, h.1.symm⟩

/-- A request that is answered with an upgrade has come whole, and the answer is to its key. -/
theorem exists_key_of_process {bs response : Bytes} {n : Nat}
    (h : process bs = .ok (.upgraded response n)) :
    headEnd? bs = some n ∧ ∃ request key, Request.parse (bs.take n) = .ok request ∧
      key? request = some key ∧ response = upgradeResponse (acceptKey key) := by
  have hn := (headEnd?_of_process h nofun).1
  refine ⟨hn, ?_⟩
  unfold process at h
  rw [hn] at h
  dsimp only [Verdict.consumed] at h
  split at h
  · simp at h
  · split at h
    · simp at h
    · rename_i request hp
      obtain ⟨key, hk, hr⟩ := exists_key_of_judge h
      exact ⟨request, key, hp, hk, hr⟩

end Handshake
end SharedCanvas
