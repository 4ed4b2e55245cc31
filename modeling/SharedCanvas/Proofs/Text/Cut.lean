import SharedCanvas.Text.Ascii
import SharedCanvas.Text.Blank
import Mathlib.Data.List.DropRight
import Mathlib.Data.List.Infix

namespace SharedCanvas.Text

def IsGap (cs : List Char) : Prop := ∀ c ∈ cs, isBlank c = true

/-- White space stands at neither end. -/
structure IsTrimmed (cs : List Char) : Prop where
  head : ∀ c ∈ cs.head?, isBlank c = false
  last : ∀ c ∈ cs.getLast?, isBlank c = false

/-- Something without white space. -/
structure IsWord (cs : List Char) : Prop where
  ne_nil : cs ≠ []
  plain : ∀ c ∈ cs, isBlank c = false

instance (cs : List Char) : Decidable (IsWord cs) :=
  decidable_of_iff (cs ≠ [] ∧ (cs.all fun c => !isBlank c) = true)
    ⟨fun h => ⟨h.1, by simpa using h.2⟩, fun h => ⟨h.1, by simpa using h.2⟩⟩

def crlf : List Char := ['\r', '\n']

/-- No line ends in it, and none does if an LF follows. -/
structure IsLine (cs : List Char) : Prop where
  whole : ¬ crlf <:+: cs
  last : cs.getLast? ≠ some '\r'

variable {cs l r w gap rest : List Char}

theorem trim_eq_rdropWhile (cs : List Char) :
    trim cs = (cs.dropWhile isBlank).rdropWhile isBlank := rfl

theorem isTrimmed_trim (cs : List Char) : IsTrimmed (trim cs) := by
  rw [trim_eq_rdropWhile]
  constructor
  · intro c hc
    obtain ⟨t, ht⟩ := List.rdropWhile_prefix isBlank (cs.dropWhile isBlank)
    have hd := List.head?_dropWhile_not isBlank cs
    rw [← ht, List.head?_append, Option.mem_def.1 hc] at hd
    exact hd
  · intro c hc
    obtain ⟨hn, rfl⟩ := List.mem_getLast?_eq_getLast hc
    exact Bool.eq_false_iff.2 (List.rdropWhile_last_not isBlank _ hn)

theorem exists_trim (cs : List Char) : ∃ l r, IsGap l ∧ IsGap r ∧ cs = l ++ trim cs ++ r := by
  refine ⟨cs.takeWhile isBlank, (cs.dropWhile isBlank).rtakeWhile isBlank, ?_, ?_, ?_⟩
  · exact fun c hc => List.mem_takeWhile_imp hc
  · exact fun c hc => List.mem_rtakeWhile_imp hc
  · rw [trim_eq_rdropWhile, List.append_assoc, List.rdropWhile_append_rtakeWhile,
      List.takeWhile_append_dropWhile]

theorem infix_trim (cs : List Char) : trim cs <:+: cs :=
  (List.rdropWhile_prefix isBlank _).isInfix.trans (List.dropWhile_suffix isBlank).isInfix

theorem trim_append (hl : IsGap l) (h : IsTrimmed cs) (hr : IsGap r) :
    trim (l ++ cs ++ r) = cs := by
  rw [trim, List.append_assoc, List.dropWhile_append_of_pos hl]
  cases cs with
  | nil =>
    rw [List.nil_append, List.dropWhile_eq_nil_iff.2 hr]
    rfl
  | cons c cs =>
    have hc : isBlank c = false := h.head c rfl
    have hd : ((c :: cs) ++ r).dropWhile isBlank = (c :: cs) ++ r := by
      rw [List.cons_append, List.dropWhile_cons_of_neg (by simp [hc])]
    have hs : (c :: cs).rdropWhile isBlank = c :: cs :=
      List.rdropWhile_eq_self_iff.2 fun hn => by
        simp [h.last _ (List.getLast?_eq_some_getLast hn)]
    rw [hd, List.reverse_append,
      List.dropWhile_append_of_pos fun x hx => hr x (List.mem_reverse.1 hx)]
    exact hs

theorem IsTrimmed.trim_eq (h : IsTrimmed cs) : trim cs = cs := by
  have ht := trim_append (l := []) (r := []) (by simp [IsGap]) h (by simp [IsGap])
  rwa [List.nil_append, List.append_nil] at ht

theorem IsWord.isTrimmed (h : IsWord w) : IsTrimmed w :=
  ⟨fun c hc => h.plain c (List.mem_of_mem_head? hc),
    fun c hc => h.plain c (List.mem_of_mem_getLast? hc)⟩

theorem splitAt_append_of_plain {p : Char → Bool} (h : ∀ c ∈ w, p c = false) (rest : List Char) :
    splitAt p (w ++ rest) = match splitAt p rest with
      | piece :: pieces => (w ++ piece) :: pieces
      | [] => [w] := by
  induction w with
  | nil =>
    obtain ⟨piece, pieces, hs⟩ := List.exists_cons_of_ne_nil (splitAt_ne_nil p rest)
    simp [hs]
  | cons c w ih =>
    obtain ⟨piece, pieces, hs⟩ := List.exists_cons_of_ne_nil (splitAt_ne_nil p rest)
    simp only [List.forall_mem_cons] at h
    rw [List.cons_append, splitAt, ih h.2, hs, h.1]
    simp

theorem words_gap_append (h : IsGap gap) (rest : List Char) : words (gap ++ rest) = words rest := by
  induction gap with
  | nil => rfl
  | cons c gap ih =>
    have hc := h c List.mem_cons_self
    rw [← ih fun d hd => h d (List.mem_cons_of_mem c hd), List.cons_append, words, splitAt,
      if_pos hc]
    rfl

theorem words_append_gap (h : IsWord w) {c : Char} (hc : isBlank c = true) (rest : List Char) :
    words (w ++ c :: rest) = w :: words rest := by
  have he : w.isEmpty = false := by simpa using h.ne_nil
  rw [words, splitAt_append_of_plain h.plain, splitAt, if_pos hc]
  simp [he, words]

theorem IsWord.words_eq (h : IsWord w) : words w = [w] := by
  have hs := splitAt_append_of_plain h.plain []
  have he : w.isEmpty = false := by simpa using h.ne_nil
  rw [List.append_nil] at hs
  simp [words, hs, splitAt, he]

theorem plain_of_mem_splitAt {p : Char → Bool} (h : w ∈ splitAt p cs) : ∀ c ∈ w, p c = false := by
  induction cs generalizing w with
  | nil => simp_all [splitAt]
  | cons c cs ih =>
    obtain ⟨piece, pieces, hs⟩ := List.exists_cons_of_ne_nil (splitAt_ne_nil p cs)
    rw [hs] at ih
    by_cases hc : p c = true
    · rw [splitAt, if_pos hc, hs, List.mem_cons] at h
      rcases h with rfl | h
      · simp
      · exact ih h
    · rw [splitAt, if_neg hc, hs, List.mem_cons] at h
      rcases h with rfl | h
      · rw [List.forall_mem_cons]
        exact ⟨Bool.eq_false_iff.2 hc, ih List.mem_cons_self⟩
      · exact ih (List.mem_cons_of_mem piece h)

theorem prefix_of_splitAt {p : Char → Bool} {ws : List (List Char)} (h : splitAt p cs = w :: ws) :
    w <+: cs := by
  induction cs generalizing w ws with
  | nil =>
    cases h
    exact List.prefix_refl _
  | cons c cs ih =>
    obtain ⟨piece, pieces, hs⟩ := List.exists_cons_of_ne_nil (splitAt_ne_nil p cs)
    rw [splitAt, hs] at h
    split at h
    · cases h
      exact List.nil_prefix
    · cases h
      exact List.cons_prefix_cons.2 ⟨rfl, ih hs⟩

theorem infix_of_mem_splitAt {p : Char → Bool} (h : w ∈ splitAt p cs) : w <:+: cs := by
  induction cs generalizing w with
  | nil =>
    rw [splitAt, List.mem_singleton] at h
    exact h ▸ List.infix_refl _
  | cons c cs ih =>
    obtain ⟨piece, pieces, hs⟩ := List.exists_cons_of_ne_nil (splitAt_ne_nil p cs)
    have hcs : cs <:+: c :: cs := (List.suffix_cons c cs).isInfix
    rw [splitAt, hs] at h
    rw [hs] at ih
    split at h
    · rcases List.mem_cons.1 h with rfl | h
      · exact List.nil_infix
      · exact (ih h).trans hcs
    · rcases List.mem_cons.1 h with rfl | h
      · exact (List.cons_prefix_cons.2 ⟨rfl, prefix_of_splitAt hs⟩).isInfix
      · exact (ih (List.mem_cons_of_mem piece h)).trans hcs

theorem isWord_of_mem_words (h : w ∈ words cs) : IsWord w := by
  rw [words, List.mem_filter] at h
  exact ⟨by simpa using h.2, plain_of_mem_splitAt h.1⟩

theorem isBlank_of_isDigit {c : Char} (h : c.isDigit = true) : isBlank c = false := by
  have hn : 48 ≤ c.toNat ∧ c.toNat ≤ 57 := by
    simpa [Char.isDigit, UInt32.le_iff_toNat_le, ← Char.toNat_val] using h
  simp only [isBlank, Bool.or_eq_false_iff, Bool.and_eq_false_iff, decide_eq_false_iff_not,
    beq_eq_false_iff_ne]
  omega

theorem isWord_toString (n : Nat) : IsWord (toString n).toList := by
  rw [Nat.toString_eq_repr, Nat.toList_repr]
  refine ⟨Nat.toDigits_ne_nil, fun c hc => ?_⟩
  exact isBlank_of_isDigit (Nat.isDigit_of_mem_toDigits (by decide) (by decide) hc)

theorem isLine_of_not_mem (h : '\r' ∉ cs) : IsLine cs :=
  ⟨fun hi => h (hi.subset List.mem_cons_self), fun hl => h (List.mem_of_getLast? hl)⟩

theorem IsWord.cr_not_mem (h : IsWord w) : '\r' ∉ w :=
  fun hm => absurd (h.plain _ hm) (by decide)

theorem IsWord.isLine (h : IsWord w) : IsLine w := isLine_of_not_mem h.cr_not_mem

theorem IsTrimmed.isLine (h : IsTrimmed cs) (hw : ¬ crlf <:+: cs) : IsLine cs :=
  ⟨hw, fun hl => absurd (h.last _ hl) (by decide)⟩

theorem IsLine.append (hl : IsLine l) (hr : IsLine r) : IsLine (l ++ r) := by
  constructor
  · rw [List.infix_append_iff]
    rintro (h | h | ⟨x, y, hxy, hx, hy⟩)
    · exact hl.whole h
    · exact hr.whole h
    · -- Neither half holds all of CR LF, so the cut is between its two characters.
      match x, hxy with
      | [], hxy =>
        rw [List.nil_append] at hxy
        exact hr.whole (hxy ▸ hy.isInfix)
      | [c], hxy =>
        rw [crlf, List.singleton_append, List.cons.injEq] at hxy
        rw [← hxy.1] at hx
        obtain ⟨t, rfl⟩ := hx
        exact hl.last (List.getLast?_concat ..)
      | c :: d :: x, hxy =>
        have hn : y = [] := by
          have := congrArg List.length hxy
          simp only [crlf, List.length_append, List.length_cons, List.length_nil] at this
          exact List.length_eq_zero_iff.1 (by omega)
        rw [hn, List.append_nil] at hxy
        exact hl.whole (hxy ▸ hx.isInfix)
  · rw [List.getLast?_append]
    cases h : r.getLast? with
    | none => simpa using hl.last
    | some c => exact fun hc => hr.last (h.trans hc)

theorem lines_cons {c : Char} (h : ¬ crlf <+: c :: cs) :
    lines (c :: cs) = match lines cs with
      | line :: rest => (c :: line) :: rest
      | [] => [[c]] := by
  have hn : ∀ d, c = '\r' → cs = '\n' :: d → False := by
    rintro d rfl rfl
    exact h (List.prefix_append crlf d)
  exact lines.eq_3 c cs hn

theorem lines_append (h : IsLine l) (rest : List Char) :
    lines (l ++ (crlf ++ rest)) = l :: lines rest := by
  induction l with
  | nil => rfl
  | cons c l ih =>
    have hl : IsLine l := by
      refine ⟨fun hi => h.whole (hi.trans (List.suffix_cons c l).isInfix), ?_⟩
      intro hr
      cases l with
      | nil => simp at hr
      | cons d l => exact h.last (by rwa [List.getLast?_cons_cons])
    -- A CR at the front has no LF behind it, inside the line or at its end.
    have hp : ¬ crlf <+: c :: (l ++ (crlf ++ rest)) := by
      rw [crlf, List.cons_prefix_cons]
      rintro ⟨rfl, hn⟩
      cases l with
      | nil => exact h.last rfl
      | cons d l =>
        rw [List.cons_append, List.cons_prefix_cons] at hn
        exact h.whole ⟨[], l, by rw [← hn.1]; rfl⟩
    rw [List.cons_append, lines_cons hp, ih hl]

/-- Lines that are written one after another are read. -/
theorem lines_flatMap {ls : List (List Char)} (h : ∀ l ∈ ls, IsLine l) (rest : List Char) :
    lines (ls.flatMap (· ++ crlf) ++ rest) = ls ++ lines rest := by
  induction ls with
  | nil => rfl
  | cons l ls ih =>
    rw [List.forall_mem_cons] at h
    rw [List.flatMap_cons, List.append_assoc, List.append_assoc, lines_append h.1, ih h.2,
      List.cons_append]

theorem head_of_lines {c : Char} {ls : List (List Char)} (h : lines cs = (c :: l) :: ls) :
    ∃ rest, cs = c :: rest := by
  unfold lines at h
  split at h
  · simp at h
  · simp at h
  · rename_i d rest _
    have hd : d = c := by split at h <;> simp_all
    exact ⟨rest, by rw [hd]⟩

theorem not_infix_of_mem_lines (h : l ∈ lines cs) : ¬ crlf <:+: l := by
  fun_induction lines cs generalizing l with
  | case1 => simp_all [crlf]
  | case2 cs ih =>
    rcases List.mem_cons.1 h with rfl | h
    · simp [crlf]
    · exact ih h
  | case3 c cs hne line ls hs ih =>
    rw [hs] at ih
    rcases List.mem_cons.1 h with rfl | h
    · rw [List.infix_cons_iff, not_or]
      refine ⟨?_, ih List.mem_cons_self⟩
      -- Else CR LF stands at the front of the text, and the line ends before it.
      rintro ⟨t, ht⟩
      rw [crlf, List.cons_append, List.cons_append, List.nil_append, List.cons.injEq] at ht
      obtain ⟨rfl, rfl⟩ := ht
      obtain ⟨rest, rfl⟩ := head_of_lines hs
      exact hne rest rfl rfl
    · exact ih (List.mem_cons_of_mem line h)
  | case4 c cs hne hs => exact absurd hs (lines_ne_nil cs)

end SharedCanvas.Text
