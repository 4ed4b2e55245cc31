import SharedCanvas.Proofs.Json.Written

namespace SharedCanvas.Json
open Bytes (ofString)

def IsGap (s : Bytes) : Prop := ∀ b ∈ s, b ∈ ofString " \t\n\r"

def HexDigit (v : Nat) (b : UInt8) : Prop :=
  (ofString "0123456789abcdef")[v]? = some b ∨ (ofString "0123456789ABCDEF")[v]? = some b

/-- Four hexadecimal digits and the number that they are. -/
inductive HexUnit : Nat → Bytes → Prop
  | mk {x y z w : Nat} {a b c d : UInt8} (ha : HexDigit x a) (hb : HexDigit y b)
      (hc : HexDigit z c) (hd : HexDigit w d) :
      HexUnit (((x * 16 + y) * 16 + z) * 16 + w) [a, b, c, d]

def escapeLetters : Bytes := ofString "\"\\/bfnrt"

/-- What stands between the marks of a string. Control characters and the two special ones are
escaped; which characters the other bytes and the escapes are does not matter. -/
inductive StringBody : Bytes → Prop
  | nil : StringBody []
  | plain {b : UInt8} {t : Bytes} (hb : 0x20 ≤ b) (hq : b ≠ quoteMark) (hs : b ≠ backslash)
      (h : StringBody t) : StringBody (b :: t)
  | short {c : UInt8} {t : Bytes} (hc : c ∈ escapeLetters) (h : StringBody t) :
      StringBody (backslash :: c :: t)
  | unit {n : Nat} {ds t : Bytes} (hd : HexUnit n ds) (h : StringBody t) :
      StringBody (backslash :: letterU :: (ds ++ t))

/-- At least one decimal digit. -/
structure IsDigits (ds : Bytes) : Prop where
  ne_nil : ds ≠ []
  digits : ∀ b ∈ ds, b ∈ ofString "0123456789"

/-- The whole part of a number. A zero in front stands alone. -/
inductive WholePart : Bytes → Prop
  | zero : WholePart [0x30]
  | digits {ds : Bytes} (h : IsDigits ds) (hz : ds.head? ≠ some 0x30) : WholePart ds

inductive FractionPart : Bytes → Prop
  | none : FractionPart []
  | digits {ds : Bytes} (h : IsDigits ds) : FractionPart (0x2E :: ds)

inductive ExponentPart : Bytes → Prop
  | none : ExponentPart []
  | digits {e : UInt8} {sign ds : Bytes} (he : e ∈ ofString "eE")
      (hs : sign ∈ [[], ofString "+", ofString "-"]) (h : IsDigits ds) :
      ExponentPart (e :: (sign ++ ds))

inductive NumberText : Bytes → Prop
  | mk {sign whole fraction exponent : Bytes} (hs : sign ∈ [[], ofString "-"])
      (hw : WholePart whole) (hf : FractionPart fraction) (he : ExponentPart exponent) :
      NumberText (sign ++ (whole ++ (fraction ++ exponent)))

inductive Part
  | value
  /-- A value with the white space around it. -/
  | item
  | items
  | member
  | members

/-- The text is such a part of a JSON text. -/
inductive Phrase : Part → Bytes → Prop
  | word {w : String} (h : w ∈ ["null", "true", "false"]) : Phrase .value (ofString w)
  | string {t : Bytes} (h : StringBody t) : Phrase .value (quoteMark :: (t ++ [quoteMark]))
  | number {t : Bytes} (h : NumberText t) : Phrase .value t
  | emptyList {g : Bytes} (hg : IsGap g) : Phrase .value (openList :: (g ++ [closeList]))
  | list {t : Bytes} (h : Phrase .items t) : Phrase .value (openList :: (t ++ [closeList]))
  | emptyObject {g : Bytes} (hg : IsGap g) : Phrase .value (openObject :: (g ++ [closeObject]))
  | object {t : Bytes} (h : Phrase .members t) : Phrase .value (openObject :: (t ++ [closeObject]))
  | item {a v b : Bytes} (ha : IsGap a) (hv : Phrase .value v) (hb : IsGap b) :
      Phrase .item (a ++ (v ++ b))
  | lastItem {t : Bytes} (ht : Phrase .item t) : Phrase .items t
  | items {t u : Bytes} (ht : Phrase .item t) (hu : Phrase .items u) :
      Phrase .items (t ++ comma :: u)
  | member {a k b t : Bytes} (ha : IsGap a) (hk : StringBody k) (hb : IsGap b)
      (ht : Phrase .item t) :
      Phrase .member (a ++ quoteMark :: (k ++ quoteMark :: (b ++ colon :: t)))
  | lastMember {t : Bytes} (ht : Phrase .member t) : Phrase .members t
  | members {t u : Bytes} (ht : Phrase .member t) (hu : Phrase .members u) :
      Phrase .members (t ++ comma :: u)

theorem isGap_of_all {g : Bytes} (h : g.all (ofString " \t\n\r").contains = true) : IsGap g :=
  fun b hb => List.contains_iff_mem.1 (List.all_eq_true.1 h b hb)

theorem isDigits_of_all {ds : Bytes} (hn : ds ≠ [])
    (h : ds.all (ofString "0123456789").contains = true) : IsDigits ds :=
  ⟨hn, fun b hb => List.contains_iff_mem.1 (List.all_eq_true.1 h b hb)⟩

theorem IsGap.isBlank {s : Bytes} (h : IsGap s) : ∀ b ∈ s, isBlank b = true := by
  intro b hb
  have hw : (ofString " \t\n\r").all Json.isBlank = true := by decide
  exact List.all_eq_true.1 hw b (h b hb)

theorem IsGap.skipBlanks_append {g : Bytes} (h : IsGap g) (s : Bytes) :
    skipBlanks (g ++ s) = skipBlanks s :=
  List.dropWhile_append_of_pos h.isBlank

theorem skipBlanks_append_of_eq_cons {s t : Bytes} {c : UInt8} (h : skipBlanks s = c :: t)
    (r : Bytes) : skipBlanks (s ++ r) = c :: (t ++ r) := by
  have hn : (s.dropWhile isBlank).isEmpty = false := by
    rw [skipBlanks] at h
    rw [h]
    rfl
  rw [skipBlanks, List.dropWhile_append, hn, if_neg Bool.false_ne_true]
  exact congrArg (· ++ r) h

theorem isDigit_of_mem {b : UInt8} (h : b ∈ ofString "0123456789") : isDigit b = true := by
  have hd : (ofString "0123456789").all isDigit = true := by decide
  exact List.all_eq_true.1 hd b h

theorem HexDigit.hexValue?_eq {v : Nat} {b : UInt8} (h : HexDigit v b) : hexValue? b = some v := by
  have hl : ∀ (v : Nat) (hv : v < (ofString "0123456789abcdef").length),
    hexValue? (ofString "0123456789abcdef")[v] = some v := by decide
  have hu : ∀ (v : Nat) (hv : v < (ofString "0123456789ABCDEF").length),
    hexValue? (ofString "0123456789ABCDEF")[v] = some v := by decide
  rcases h with h | h <;> obtain ⟨hv, rfl⟩ := List.getElem?_eq_some_iff.1 h
  · exact hl v hv
  · exact hu v hv

theorem HexUnit.exists_eq {n : Nat} {ds : Bytes} (h : HexUnit n ds) :
    ∃ a b c d, ds = [a, b, c, d] ∧ hexUnit? a b c d = some n := by
  cases h with
  | mk ha hb hc hd =>
    refine ⟨_, _, _, _, rfl, ?_⟩
    simp [hexUnit?, ha.hexValue?_eq, hb.hexValue?_eq, hc.hexValue?_eq, hd.hexValue?_eq]

section
variable {part : Part} {t g rest : Bytes}

def IsBegun (t : Bytes) : Prop :=
  ∃ c s, skipBlanks t = c :: s ∧ c ≠ closeList ∧ c ≠ closeObject

theorem isBegun_cons {c : UInt8} {s : Bytes} (hb : isBlank c = false) (hl : c ≠ closeList)
    (ho : c ≠ closeObject) : IsBegun (c :: s) :=
  ⟨c, s, skipBlanks_cons hb, hl, ho⟩

theorem IsBegun.append (h : IsBegun t) (rest : Bytes) : IsBegun (t ++ rest) := by
  obtain ⟨c, s, hs, hc⟩ := h
  exact ⟨c, s ++ rest, skipBlanks_append_of_eq_cons hs rest, hc⟩

theorem IsBegun.gap_append (h : IsBegun t) (hg : IsGap g) : IsBegun (g ++ t) := by
  rw [IsBegun, hg.skipBlanks_append]
  exact h

theorem IsBegun.head (h : IsBegun t) :
    ∀ c ∈ (skipBlanks t).head?, c ≠ closeList ∧ c ≠ closeObject := by
  obtain ⟨c, s, hs, hc⟩ := h
  rw [hs]
  intro d hd
  rw [List.head?_cons, Option.mem_some_iff] at hd
  exact hd ▸ hc

theorem isBegun_of_isDigit {b : UInt8} {s : Bytes} (h : isDigit b = true) : IsBegun (b :: s) := by
  have hne : ∀ k, isDigit k = false → b ≠ k :=
    fun k hk => beq_eq_false_iff_ne.1 (beq_eq_false_of_isDigit h hk)
  exact isBegun_cons (isBlank_eq_false_of_isDigit h) (hne closeList rfl) (hne closeObject rfl)

theorem WholePart.isBegun (h : WholePart t) : IsBegun t := by
  cases h with
  | zero => exact isBegun_of_isDigit rfl
  | digits hd =>
    obtain ⟨b, ds, rfl⟩ := List.exists_cons_of_ne_nil hd.ne_nil
    exact isBegun_of_isDigit (isDigit_of_mem (hd.digits b List.mem_cons_self))

theorem NumberText.isBegun (h : NumberText t) : IsBegun t := by
  cases h with
  | mk hs hw =>
    simp only [List.mem_cons, List.not_mem_nil, or_false] at hs
    rcases hs with rfl | rfl
    · exact hw.isBegun.append _
    · exact isBegun_cons (c := minus) (by decide) (by decide) (by decide)

theorem Phrase.isBegun (h : Phrase part t) : IsBegun t := by
  induction h with
  | word hw =>
    simp only [List.mem_cons, List.not_mem_nil, or_false] at hw
    rcases hw with rfl | rfl | rfl <;> exact isBegun_cons (by decide) (by decide) (by decide)
  | number h => exact h.isBegun
  | string => exact isBegun_cons (by decide) (by decide) (by decide)
  | emptyList => exact isBegun_cons (by decide) (by decide) (by decide)
  | list => exact isBegun_cons (by decide) (by decide) (by decide)
  | emptyObject => exact isBegun_cons (by decide) (by decide) (by decide)
  | object => exact isBegun_cons (by decide) (by decide) (by decide)
  | item ha _ _ ih => exact (ih.append _).gap_append ha
  | lastItem _ ih => exact ih
  | items _ _ ih => exact ih.append _
  | member ha => exact (isBegun_cons (by decide) (by decide) (by decide)).gap_append ha
  | lastMember _ ih => exact ih
  | members _ _ ih => exact ih.append _

theorem endsNumber_nil : EndsNumber [] := nofun

theorem endsNumber_gap_append (hg : IsGap g) (hr : EndsNumber rest) : EndsNumber (g ++ rest) := by
  cases g with
  | nil => exact hr
  | cons b g =>
    have hb : (ofString " \t\n\r").all (fun b => !continuesNumber b) = true := by decide
    refine endsNumber_cons ?_
    simpa using List.all_eq_true.1 hb b (hg b List.mem_cons_self)

end

end SharedCanvas.Json
