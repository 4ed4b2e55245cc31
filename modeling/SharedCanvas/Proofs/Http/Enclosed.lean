import SharedCanvas.Http.Site
import SharedCanvas.Proofs.Storage.Lexical

namespace SharedCanvas.Site

open Text SharedCanvas.Path

theorem hasDoubleDot_iff {cs : List Char} : hasDoubleDot cs = true ↔ "..".toList <:+: cs := by
  fun_induction hasDoubleDot cs with
  | case1 cs => exact iff_of_true rfl ⟨[], cs, rfl⟩
  | case2 c cs h ih =>
    rw [ih, List.infix_cons_iff]
    refine (or_iff_right ?_).symm
    rintro ⟨tail, ht⟩
    cases ht
    exact h tail rfl rfl
  | case3 => decide

variable {site : Site} {target : String}

def IsMark (c : Char) : Prop := c = '?' ∨ c = '#'

instance (c : Char) : Decidable (IsMark c) := inferInstanceAs (Decidable (_ ∨ _))

theorem exists_targetPath (target : String) : ∃ rest, target.toList = targetPath target ++ rest ∧
    (∀ c ∈ targetPath target, ¬ IsMark c) ∧ ∀ c ∈ rest.head?, IsMark c := by
  let p : Char → Bool := fun c => c != '?' && c != '#'
  refine ⟨target.toList.dropWhile p, List.takeWhile_append_dropWhile.symm, ?_, ?_⟩
  · intro c hc
    simpa [p, IsMark] using List.mem_takeWhile_imp hc
  · intro c hc
    have hd := List.head?_dropWhile_not p target.toList
    rw [Option.mem_def.1 hc] at hd
    simpa [p, IsMark, or_iff_not_imp_left] using hd

/-- Two dots in a row, or a backslash. -/
def IsSuspect (p : List Char) : Prop := "..".toList <:+: p ∨ '\\' ∈ p

instance (p : List Char) : Decidable (IsSuspect p) := inferInstanceAs (Decidable (_ ∨ _))

def below (p : List Char) : List Char :=
  if p.all (· == '/') then "index.html".toList else p.dropWhile (· == '/')

theorem below_eq (p : List Char) : below p =
    let rest := p.dropWhile (· == '/')
    if rest.isEmpty then "index.html".toList else rest := by
  have hp : (p.dropWhile (· == '/')).isEmpty = true ↔ p.all (· == '/') = true := by
    rw [List.isEmpty_iff, List.dropWhile_eq_nil_iff, List.all_eq_true]
  simp only [below, hp]

theorem relative_eq (target : String) : relative target =
    if IsSuspect (targetPath target) then .error .forbidden
    else .ok (below (targetPath target)) := by
  simp only [relative, below_eq, IsSuspect, Bool.or_eq_true, hasDoubleDot_iff,
    List.contains_iff_mem]

theorem resolve_eq (site : Site) (target : String) : site.resolve target =
    if IsSuspect (targetPath target) then .error .forbidden
    else .ok (join site.root (Bytes.ofString (String.ofList (below (targetPath target))))) := by
  rw [resolve, relative_eq]
  split_ifs <;> rfl

theorem below_ne_nil (p : List Char) : below p ≠ [] := by
  rw [below]
  split_ifs with h
  · decide
  · rw [ne_eq, List.dropWhile_eq_nil_iff]
    simpa using h

theorem head?_below (p : List Char) : (below p).head? ≠ some '/' := by
  rw [below]
  split_ifs
  · decide
  · intro h
    have hd := List.head?_dropWhile_not (· == '/') p
    rw [h] at hd
    simp at hd

theorem up_not_mem_below {p : List Char} (h : ¬ IsSuspect p) :
    up ∉ segments (Bytes.ofString (String.ofList (below p))) := by
  rw [below]
  split_ifs
  · decide
  · rw [segments_ofString, List.mem_map]
    rintro ⟨w, hw, hu⟩
    have hup : up = Bytes.ofString (String.ofList "..".toList) := by decide
    rw [hup, Bytes.ofString_inj, String.ofList_inj] at hu
    rw [hu] at hw
    exact h (.inl ((infix_of_mem_splitAt hw).trans (List.dropWhile_suffix _).isInfix))

/-- What a target stands for is the root or below it, by its text and in the file system. -/
theorem isWithin_of_resolve {path : Bytes} (h : site.resolve target = .ok path) :
    (lexical path).IsWithin (lexical site.root) ∧
      ∀ (files : FileSystem) t, files.locate path = .ok (some t) →
        FileSystem.textPlace site.root <+: t.place := by
  rw [resolve_eq] at h
  split_ifs at h with hp
  obtain rfl := Except.ok.inj h
  have hrel := isAbsolute_ofString (head?_below (targetPath target))
  have hup := up_not_mem_below hp
  refine ⟨isWithin_join hrel hup site.root, fun files t ht => ?_⟩
  obtain ⟨names, hn, -⟩ := exists_foldl_join hrel hup site.root true
  rw [FileSystem.place_eq_textPlace ht]
  exact ⟨names, hn.symm⟩

/-- `respond`, with whatever comes of reading a file. -/
def respondBy {m : Type → Type} [Monad m] (site : Site)
    (read : Bytes → m (Except FileFault Bytes)) (request : Request) : m Bytes :=
  let headOnly := sameIgnoringCase request.method "HEAD"
  if !headOnly && !sameIgnoringCase request.method "GET" then
    pure (refuse .methodNotAllowed)
  else
    match site.resolve request.path with
    | .error r => pure (refuse r)
    | .ok path => do
      match ← read path with
      | .error _ => pure (refuse .notFound)
      | .ok body =>
        pure (head 200 "OK" (mimeType path) body.length ++ if headOnly then [] else body)

/-- Reads a file and notes its path behind those that were read before. -/
def readNoting (files : FileSystem) (path : Bytes) :
    StateM (List Bytes) (Except FileFault Bytes) := do
  modify (· ++ [path])
  pure (files.read path)

/-- The answer to a request, and the paths that are read for it. -/
def respondNoting (site : Site) (request : Request) : Bytes × List Bytes :=
  (site.respondBy (readNoting site.files) request).run []

/-- The notes change no answer, and at most one path is read: that of the target. -/
theorem respondNoting_cases (site : Site) (request : Request) :
    (site.respondNoting request).1 = site.respond request ∧
      ∀ path ∈ (site.respondNoting request).2, site.resolve request.path = .ok path := by
  have hone : ∀ path, ∀ other ∈ [path], (.ok path : Except Refusal Bytes) = .ok other := by simp
  unfold respondNoting respondBy respond
  by_cases hm : (!sameIgnoringCase request.method "HEAD" &&
      !sameIgnoringCase request.method "GET") = true
  · simp only [hm, if_true]
    exact ⟨rfl, fun _ h => absurd h List.not_mem_nil⟩
  · simp only [hm, Bool.false_eq_true, if_false]
    cases site.resolve request.path with
    | error r => exact ⟨rfl, fun _ h => absurd h List.not_mem_nil⟩
    | ok path =>
      have hr : (readNoting site.files path).run [] = (site.files.read path, [path]) := rfl
      simp only [StateT.run_bind, hr]
      cases site.files.read path with
      | error e => exact ⟨rfl, hone path⟩
      | ok body => exact ⟨rfl, hone path⟩

/-- What is not below the root makes no difference to any answer. -/
theorem respond_congr {files : FileSystem} (request : Request)
    (h : ∀ path, (lexical path).IsWithin (lexical site.root) →
      files.read path = site.files.read path) :
    (Site.mk site.root files).respond request = site.respond request := by
  have hr : (Site.mk site.root files).resolve request.path = site.resolve request.path := rfl
  unfold respond
  rw [hr]
  cases hp : site.resolve request.path with
  | error r => rfl
  | ok path =>
    dsimp only
    rw [h path (isWithin_of_resolve hp).1]

/-- A target is refused exactly if its path, which ends before the first mark, has two dots in a row
or a backslash in it; else it stands for a path that is joined to the root, is not empty or absolute
and nowhere goes up. So whatever is asked for and however, by their text alone all paths that are
read for it are the root or below it, the entries that they name stand there, and what can be read
elsewhere makes no difference. -/
theorem reads_stay_within (site : Site) :
    (∀ target, ∃ p rest, target.toList = p ++ rest ∧
      (∀ c ∈ p, ¬ IsMark c) ∧ (∀ c ∈ rest.head?, IsMark c) ∧
      (∀ e, site.resolve target = .error e ↔ e = .forbidden ∧ IsSuspect p) ∧
      (IsSuspect p ∨ ∃ r,
        r = (if p.all (· == '/') then "index.html".toList else p.dropWhile (· == '/')) ∧
        site.resolve target = .ok (join site.root (Bytes.ofString (String.ofList r))) ∧
        r ≠ [] ∧ r.head? ≠ some '/' ∧ up ∉ segments (Bytes.ofString (String.ofList r)))) ∧
    ∀ request, (site.respondNoting request).1 = site.respond request ∧
      (∀ path ∈ (site.respondNoting request).2, (lexical path).IsWithin (lexical site.root) ∧
        ∀ t, site.files.locate path = .ok (some t) →
          FileSystem.textPlace site.root <+: t.place) ∧
      ∀ files : FileSystem, (∀ path, (lexical path).IsWithin (lexical site.root) →
        files.read path = site.files.read path) →
        (Site.mk site.root files).respond request = site.respond request := by
  constructor
  · intro target
    obtain ⟨rest, htarget, hp, hrest⟩ := exists_targetPath target
    refine ⟨targetPath target, rest, htarget, hp, hrest, ?_, ?_⟩
    · intro e
      rw [resolve_eq]
      split_ifs with h
      · simp [h, eq_comm]
      · simp [h]
    · rw [resolve_eq]
      by_cases h : IsSuspect (targetPath target)
      · exact .inl h
      · rw [if_neg h]
        exact .inr ⟨below (targetPath target), rfl, rfl, below_ne_nil _, head?_below _,
          up_not_mem_below h⟩
  · intro request
    obtain ⟨hsame, hreads⟩ := site.respondNoting_cases request
    refine ⟨hsame, fun path hpath => ?_, fun _ h => respond_congr request h⟩
    obtain ⟨hw, hplace⟩ := isWithin_of_resolve (hreads path hpath)
    exact ⟨hw, hplace site.files⟩

/-- The root goes up by itself; what is asked for ends before it would go up. -/
example :
    let site : Site := ⟨Bytes.ofString "/srv/../www/", .empty⟩
    (site.respondNoting ⟨"Head", "//./a?/../b", "HTTP/1.1", []⟩).2 =
        [Bytes.ofString "/srv/../www/./a"] ∧
      lexical (Bytes.ofString "/srv/../www/./a") =
        ⟨true, [Bytes.ofString "www", Bytes.ofString "a"]⟩ := by
  decide +kernel

end SharedCanvas.Site
