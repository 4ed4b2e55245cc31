import SharedCanvas.Proofs.Storage.Draft
import SharedCanvas.Proofs.Text.Cut

namespace SharedCanvas

namespace Path

/-- Where a path leads by its text alone. Without a slash in front it leads on from wherever one is,
and may go up from there first. -/
structure Lexical where
  absolute : Bool
  names : List Bytes
deriving DecidableEq, Repr

def ascend (absolute : Bool) (names : List Bytes) : List Bytes :=
  match names.getLast? with
  | none => if absolute then [] else [up]
  | some s => if s == up then names ++ [up] else names.dropLast

def follow (absolute : Bool) (names : List Bytes) (segment : Bytes) : List Bytes :=
  if isIdle segment then names
  else if segment == up then ascend absolute names
  else names ++ [segment]

def isAbsolute (path : Bytes) : Bool := path.head? == some slash

def lexical (path : Bytes) : Lexical where
  absolute := isAbsolute path
  names := (segments path).foldl (follow (isAbsolute path)) []

/-- The one is the other, or is reached from it by going down only. -/
structure Lexical.IsWithin (p root : Lexical) : Prop where
  absolute : p.absolute = root.absolute
  below : ∃ below, p.names = root.names ++ below ∧ up ∉ below

theorem foldl_follow_of_not_up {absolute : Bool} {ss : List Bytes} (h : up ∉ ss)
    (names : List Bytes) :
    ss.foldl (follow absolute) names = names ++ ss.filter fun s => !isIdle s := by
  induction ss generalizing names with
  | nil => simp
  | cons s ss ih =>
    rw [List.mem_cons, not_or] at h
    rw [List.foldl_cons, ih h.2, follow]
    cases hi : isIdle s with
    | true => simp [hi]
    | false => simp [hi, Ne.symm h.1]

theorem foldl_follow_of_idle {absolute : Bool} {ss : List Bytes} (h : ∀ s ∈ ss, isIdle s = true)
    (names : List Bytes) : ss.foldl (follow absolute) names = names := by
  induction ss with
  | nil => rfl
  | cons s ss ih =>
    rw [List.forall_mem_cons] at h
    rw [List.foldl_cons, follow, if_pos h.1, ih h.2]

variable {root path : Bytes}

theorem foldl_follow_join (hp : isAbsolute path = false) (absolute : Bool) :
    (segments (join root path)).foldl (follow absolute) [] =
      (segments path).foldl (follow absolute) ((segments root).foldl (follow absolute) []) := by
  have hidle : ∀ names, follow absolute names [] = names := fun _ => rfl
  unfold join
  cases root using List.reverseRecOn with
  | nil => simp [segments, hidle]
  | append_singleton base b =>
    have hs : (path.head? == some slash || (base ++ [b]).isEmpty) = false := by
      simpa [isAbsolute] using hp
    rw [hs, List.getLast?_concat, if_neg Bool.false_ne_true]
    by_cases hb : b = slash
    · have hroot : segments (base ++ [slash]) = segments base ++ [[]] := segments_append base []
      rw [hb, if_pos BEq.rfl, List.append_assoc, List.singleton_append, segments_append, hroot,
        List.foldl_append, List.foldl_append, List.foldl_cons, List.foldl_nil, hidle]
    · rw [if_neg (by simpa using hb), segments_append, List.foldl_append]

theorem isAbsolute_join (hp : isAbsolute path = false) :
    isAbsolute (join root path) = isAbsolute root := by
  unfold join
  cases root with
  | nil => simpa [isAbsolute] using hp
  | cons c root =>
    have hs : (path.head? == some slash || (c :: root).isEmpty) = false := by
      simpa [isAbsolute] using hp
    rw [hs]
    split
    · contradiction
    · split <;> rfl

/-- A path that is not absolute and does not go up leads no way out of what it is joined to. -/
theorem exists_foldl_join (hp : isAbsolute path = false) (hu : up ∉ segments path) (root : Bytes)
    (absolute : Bool) : ∃ below, (segments (join root path)).foldl (follow absolute) [] =
      (segments root).foldl (follow absolute) [] ++ below ∧ up ∉ below := by
  refine ⟨(segments path).filter fun s => !isIdle s, ?_, fun h => hu (List.mem_of_mem_filter h)⟩
  rw [foldl_follow_join hp, foldl_follow_of_not_up hu]

theorem isWithin_join (hp : isAbsolute path = false) (hu : up ∉ segments path) (root : Bytes) :
    (lexical (join root path)).IsWithin (lexical root) where
  absolute := isAbsolute_join hp
  below := by
    rw [lexical, lexical, isAbsolute_join hp]
    exact exists_foldl_join hp hu root _

open Bytes in
theorem slash_not_mem_utf8EncodeChar {c : Char} (h : c ≠ '/') : slash ∉ String.utf8EncodeChar c :=
  fun hm => h (Char.toNat_inj.1 (toNat_eq_of_mem_utf8EncodeChar hm (by decide)))

theorem segments_ofString (cs : List Char) : segments (Bytes.ofString (String.ofList cs)) =
    (Text.splitAt (· == '/') cs).map fun w => Bytes.ofString (String.ofList w) := by
  simp only [Bytes.ofString_ofList]
  induction cs with
  | nil => rfl
  | cons c cs ih =>
    obtain ⟨w, ws, hw⟩ := List.exists_cons_of_ne_nil (Text.splitAt_ne_nil (· == '/') cs)
    rw [hw] at ih
    rw [List.flatMap_cons, Text.splitAt, hw]
    by_cases hc : c = '/'
    · subst hc
      have he : String.utf8EncodeChar '/' = [slash] := by decide
      rw [he, List.singleton_append, segments, if_pos BEq.rfl, ih]
      rfl
    · rw [segments_append_of_not_mem (slash_not_mem_utf8EncodeChar hc), ih,
        if_neg (by simpa using hc)]
      rfl

theorem isAbsolute_ofString {cs : List Char} (h : cs.head? ≠ some '/') :
    isAbsolute (Bytes.ofString (String.ofList cs)) = false := by
  rw [Bytes.ofString_ofList]
  cases cs with
  | nil => rfl
  | cons c cs =>
    have hs := slash_not_mem_utf8EncodeChar (c := c) fun hc => h (congrArg some hc)
    rw [isAbsolute, beq_eq_false_iff_ne, List.flatMap_cons, List.head?_append]
    cases he : (String.utf8EncodeChar c).head? with
    | none => exact absurd (List.head?_eq_none_iff.1 he) (String.utf8EncodeChar_ne_nil)
    | some b =>
      rw [Option.some_or]
      rintro ⟨rfl⟩
      exact hs (List.mem_of_mem_head? he)

end Path

namespace FileSystem
open SharedCanvas.Path

variable {fs : FileSystem} {place q : Place} {names : List Bytes} {path : Bytes}

theorem ascend_of_not_up (h : up ∉ place) : ascend true place = place.dropLast := by
  unfold ascend
  split
  · rename_i hl
    rw [List.getLast?_eq_none_iff.1 hl]
    rfl
  · rename_i s hl
    rw [if_neg]
    rintro hs
    exact h (eq_of_beq hs ▸ List.mem_of_getLast? hl)

/-- A way through directories leads where its text says. -/
theorem eq_foldl_of_walk (hw : fs.walk place names = .ok q) (hu : up ∉ place) :
    q = names.foldl (follow true) place := by
  induction names generalizing place with
  | nil =>
    have hd := lookup_of_walk hw
    rw [walk, hd] at hw
    exact (Except.ok.inj hw).symm
  | cons s ss ih =>
    rw [walk_cons (lookup_of_walk hw)] at hw
    rw [List.foldl_cons, follow]
    split_ifs at hw ⊢ with hi hs hl
    · exact ih hw hu
    · rw [ascend_of_not_up hu]
      exact ih hw fun hm => hu (List.mem_of_mem_dropLast hm)
    · refine ih hw ?_
      rw [List.mem_append, List.mem_singleton, not_or]
      exact ⟨hu, fun he => hs (beq_iff_eq.2 he.symm)⟩

def textPlace (path : Bytes) : Place := (segments path).foldl (follow true) []

/-- What a path names is where its text says. -/
theorem place_eq_textPlace {t : Target} (h : fs.locate path = .ok (some t)) :
    t.place = textPlace path := by
  unfold locate at h
  split_ifs at h
  split at h
  · simp at h
  · rename_i name above hs
    have hne : name.isEmpty = false := by
      have hd := List.head?_dropWhile_not List.isEmpty (segments path).reverse
      rwa [hs] at hd
    have hseg : segments path =
        above.reverse ++ name :: ((segments path).reverse.takeWhile List.isEmpty).reverse := by
      have hr := List.takeWhile_append_dropWhile (p := List.isEmpty) (l := (segments path).reverse)
      rw [hs] at hr
      simpa using (congrArg List.reverse hr).symm
    have hidle : ∀ s ∈ ((segments path).reverse.takeWhile List.isEmpty).reverse,
        isIdle s = true := by
      intro s hm
      rw [isIdle, List.mem_takeWhile_imp (List.mem_reverse.1 hm), Bool.true_or]
    rw [textPlace, hseg, List.foldl_append, List.foldl_cons, foldl_follow_of_idle hidle]
    split at h
    · simp at h
    · rename_i dir hw
      split_ifs at h with hn
      · simp at h
      · cases h
        rw [Bool.not_eq_true, Bool.or_eq_false_iff] at hn
        rw [← eq_foldl_of_walk hw List.not_mem_nil, follow, isIdle, hne, hn.1, hn.2]
        rfl

end FileSystem

end SharedCanvas
