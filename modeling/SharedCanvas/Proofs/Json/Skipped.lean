import SharedCanvas.Proofs.Json.Grammar

namespace SharedCanvas.Json
open Bytes (ofString)

def resume (enclosing : List Bracket) (rest : Bytes) : Except Fault Bytes :=
  if enclosing.isEmpty then .ok rest else skipFrom .after enclosing rest

section
variable {mode mode' : Mode} {enclosing enclosing' : List Bracket} {c : UInt8} {s t g rest : Bytes}

theorem skipFrom_go (h : move mode enclosing c = .go mode' enclosing') (s : Bytes) :
    skipFrom mode enclosing (c :: s) = skipFrom mode' enclosing' s := by
  rw [skipFrom, h]

theorem skipFrom_closing (h : move mode enclosing c = closing enclosing') (s : Bytes) :
    skipFrom mode enclosing (c :: s) = resume enclosing' s := by
  rw [skipFrom, h]
  cases enclosing' <;> rfl

theorem skipFrom_digits {a b d e : UInt8} {n : Nat}
    (h : move mode enclosing c = .digits mode' enclosing') (hu : hexUnit? a b d e = some n)
    (s : Bytes) : skipFrom mode enclosing (c :: a :: b :: d :: e :: s) =
      skipFrom mode' enclosing' s := by
  rw [skipFrom, h]
  simp [hu]

theorem skipFrom_gap (h : ∀ b, isBlank b = true → move mode enclosing b = .go mode enclosing)
    (hg : IsGap g) (s : Bytes) : skipFrom mode enclosing (g ++ s) = skipFrom mode enclosing s := by
  induction g with
  | nil => rfl
  | cons b g ih =>
    have hb := List.forall_mem_cons.1 hg
    rw [List.cons_append, skipFrom_go (h b (hg.isBlank b List.mem_cons_self)), ih hb.2]

theorem value_blank (enclosing : List Bracket) {b : UInt8} (hb : isBlank b = true) :
    move .value enclosing b = .go .value enclosing := by
  simp [move, valueMove, hb]

theorem after_blank (bracket : Bracket) (outer : List Bracket) {b : UInt8} (hb : isBlank b = true) :
    move .after (bracket :: outer) b = .go .after (bracket :: outer) := by
  simp [move, afterMove, hb]

theorem key_blank (enclosing : List Bracket) {b : UInt8} (hb : isBlank b = true) :
    move .key enclosing b = .go .key enclosing := by
  simp [move, hb]

theorem colon_blank (enclosing : List Bracket) {b : UInt8} (hb : isBlank b = true) :
    move .colon enclosing b = .go .colon enclosing := by
  simp [move, hb]

theorem backslash_move (isKey : Bool) (enclosing : List Bracket) :
    move (.text isKey) enclosing backslash = .go (.escape isKey) enclosing := rfl

/-- A bracket that has just been opened may be closed at once. If it is not, it makes no
difference. -/
theorem skipFrom_opened {opened : Mode} {closer : UInt8}
    (ho : ∀ b, isBlank b = true → move opened enclosing b = .go opened enclosing)
    (hm : ∀ b, isBlank b = true → move mode enclosing b = .go mode enclosing)
    (he : ∀ c, isBlank c = false → c ≠ closer → move opened enclosing c = move mode enclosing c)
    (hn : atEnd opened enclosing = atEnd mode enclosing)
    (h : ∀ c ∈ (skipBlanks s).head?, c ≠ closer) :
    skipFrom opened enclosing s = skipFrom mode enclosing s := by
  induction s with
  | nil => exact hn
  | cons c s ih =>
    by_cases hb : isBlank c = true
    · rw [skipBlanks, List.dropWhile_cons_of_pos hb] at h
      rw [skipFrom_go (ho c hb), skipFrom_go (hm c hb), ih h]
    · rw [skipBlanks, List.dropWhile_cons_of_neg hb] at h
      rw [skipFrom, skipFrom, he c (Bool.eq_false_iff.2 hb) (h c rfl)]

theorem skipFrom_text (h : StringBody t) (isKey : Bool) (enclosing : List Bracket) (rest : Bytes) :
    skipFrom (.text isKey) enclosing (t ++ quoteMark :: rest) =
      if isKey then skipFrom .colon enclosing rest else resume enclosing rest := by
  induction h with
  | nil =>
    cases isKey with
    | true => exact skipFrom_go (by simp [move]) rest
    | false => exact skipFrom_closing (by simp [move]) rest
  | plain hb hq hs _ ih =>
    rw [List.cons_append, skipFrom_go, ih]
    simp [move, hq, hs, UInt8.not_lt.2 hb]
  | @short c t hc _ ih =>
    have he : escapeLetters.all (fun c => (simpleEscape? c).isSome) = true := by decide
    have hm : move (.escape isKey) enclosing c = .go (.text isKey) enclosing := by
      simp [move, List.all_eq_true.1 he c hc]
    rw [List.cons_append, List.cons_append, skipFrom_go (backslash_move isKey enclosing),
      skipFrom_go hm, ih]
  | unit hd _ ih =>
    obtain ⟨a, b, c, d, rfl, hu⟩ := hd.exists_eq
    have hm : move (.escape isKey) enclosing letterU = .digits (.text isKey) enclosing := by rfl
    rw [List.cons_append, List.cons_append, skipFrom_go (backslash_move isKey enclosing)]
    simp only [List.cons_append, List.nil_append]
    rw [skipFrom_digits hm hu, ih]

theorem skipFrom_word {w : String} (h : w ∈ ["null", "true", "false"])
    (enclosing : List Bracket) (rest : Bytes) :
    skipFrom .value enclosing (ofString w ++ rest) = resume enclosing rest := by
  simp only [List.mem_cons, List.not_mem_nil, or_false] at h
  rcases h with rfl | rfl | rfl <;> cases enclosing <;> rfl

end

section
variable {state state' : NumberState} {enclosing : List Bracket} {ds s rest : Bytes} {c : UInt8}

theorem skipFrom_next (h : state.next? c = some state') (s : Bytes) :
    skipFrom (.number state) enclosing (c :: s) = skipFrom (.number state') enclosing s :=
  skipFrom_go (by simp [move, h]) s

theorem skipFrom_run (h : ∀ b, isDigit b = true → state.next? b = some state)
    (hd : ∀ b ∈ ds, isDigit b = true) (s : Bytes) :
    skipFrom (.number state) enclosing (ds ++ s) = skipFrom (.number state) enclosing s := by
  induction ds with
  | nil => rfl
  | cons b ds ih =>
    rw [List.forall_mem_cons] at hd
    rw [List.cons_append, skipFrom_next (h b hd.1), ih hd.2]

theorem IsDigits.skipFrom_eq (hd : IsDigits ds)
    (h : ∀ b, isDigit b = true → state.next? b = some state')
    (h' : ∀ b, isDigit b = true → state'.next? b = some state') (s : Bytes) :
    skipFrom (.number state) enclosing (ds ++ s) = skipFrom (.number state') enclosing s := by
  obtain ⟨b, ds, rfl⟩ := List.exists_cons_of_ne_nil hd.ne_nil
  have hds := fun b hb => isDigit_of_mem (hd.digits b hb)
  rw [List.forall_mem_cons] at hds
  rw [List.cons_append, skipFrom_next (h b hds.1), skipFrom_run h' hds.2]

/-- A number that may end ends before what does not go on with it. -/
theorem skipFrom_number (h : state.isWhole = true) (hr : EndsNumber rest) :
    skipFrom (.number state) enclosing rest = resume enclosing rest := by
  cases rest with
  | nil =>
    rw [skipFrom, atEnd, h, resume]
    cases enclosing <;> rfl
  | cons c rest =>
    have hc := hr c rfl
    simp only [continuesNumber, Bool.or_eq_false_iff] at hc
    have hn : state.next? c = none := by
      cases state <;> simp_all [NumberState.next?, NumberState.isWhole]
    have hm : move (.number state) enclosing c = afterMove enclosing c := by
      simp [move, hn, h, hc]
    rw [skipFrom, hm, resume]
    cases enclosing with
    | nil => rfl
    | cons b outer => rw [skipFrom]; rfl

theorem next?_digit {b : UInt8} (h : isDigit b = true) :
    NumberState.next? .whole b = some .whole ∧ NumberState.next? .point b = some .fraction ∧
      NumberState.next? .fraction b = some .fraction ∧ NumberState.next? .mark b = some .exponent ∧
        NumberState.next? .power b = some .exponent ∧
          NumberState.next? .exponent b = some .exponent := by
  have hs : (b == 0x2B || b == minus) = false := by
    rw [beq_eq_false_of_isDigit h rfl, beq_eq_false_of_isDigit h rfl]
    rfl
  simp [NumberState.next?, h, hs]

theorem next?_mark (h : state = .zero ∨ state = .whole ∨ state = .fraction) :
    ∀ e ∈ ofString "eE", state.next? e = some .mark := by
  have ha : (ofString "eE").all (fun e => state.next? e == some .mark) = true := by
    rcases h with rfl | rfl | rfl <;> decide
  exact fun e he => beq_iff_eq.1 (List.all_eq_true.1 ha e he)

theorem ExponentPart.skipFrom_eq {t : Bytes} (h : ExponentPart t) (hw : state.isWhole = true)
    (hm : ∀ e ∈ ofString "eE", state.next? e = some .mark) (hr : EndsNumber rest) :
    skipFrom (.number state) enclosing (t ++ rest) = resume enclosing rest := by
  cases h with
  | none => exact skipFrom_number hw hr
  | @digits e sign ds he hs hd =>
    -- The digits may follow the mark or its sign, and they lead to the same state from both.
    have hds : ∀ st : NumberState, (∀ b, isDigit b = true → st.next? b = some .exponent) →
        skipFrom (.number st) enclosing (ds ++ rest) = resume enclosing rest := by
      intro st hst
      rw [hd.skipFrom_eq hst fun b hb => (next?_digit hb).2.2.2.2.2]
      exact skipFrom_number rfl hr
    rw [List.cons_append, skipFrom_next (hm e he), List.append_assoc]
    simp only [List.mem_cons, List.not_mem_nil, or_false] at hs
    rcases hs with rfl | rfl | rfl
    · exact hds .mark fun b hb => (next?_digit hb).2.2.2.1
    · exact (skipFrom_next rfl _).trans (hds .power fun b hb => (next?_digit hb).2.2.2.2.1)
    · exact (skipFrom_next rfl _).trans (hds .power fun b hb => (next?_digit hb).2.2.2.2.1)

theorem FractionPart.skipFrom_eq {t u : Bytes} (h : FractionPart t) (hu : ExponentPart u)
    (hs : state = .zero ∨ state = .whole) (hr : EndsNumber rest) :
    skipFrom (.number state) enclosing (t ++ (u ++ rest)) = resume enclosing rest := by
  have hm : ∀ e ∈ ofString "eE", state.next? e = some .mark := next?_mark (hs.imp_right .inl)
  cases h with
  | none =>
    refine hu.skipFrom_eq ?_ hm hr
    rcases hs with rfl | rfl <;> rfl
  | @digits ds hd =>
    have hp : state.next? 0x2E = some .point := by rcases hs with rfl | rfl <;> rfl
    rw [List.cons_append, skipFrom_next hp, hd.skipFrom_eq (fun b hb => (next?_digit hb).2.1)
      fun b hb => (next?_digit hb).2.2.1]
    exact hu.skipFrom_eq rfl (next?_mark (.inr (.inr rfl))) hr

theorem WholePart.skipFrom_eq {mode : Mode} {t u v : Bytes} (h : WholePart t)
    (hu : FractionPart u) (hv : ExponentPart v) (hm : mode = .value ∨ mode = .number .sign)
    (hr : EndsNumber rest) :
    skipFrom mode enclosing (t ++ (u ++ (v ++ rest))) = resume enclosing rest := by
  cases h with
  | zero =>
    have h0 : move mode enclosing 0x30 = .go (.number .zero) enclosing := by
      rcases hm with rfl | rfl <;> rfl
    rw [List.singleton_append, skipFrom_go h0]
    exact hu.skipFrom_eq hv (.inl rfl) hr
  | digits hd hz =>
    obtain ⟨b, ds, rfl⟩ := List.exists_cons_of_ne_nil hd.ne_nil
    have hds := fun b hb => isDigit_of_mem (hd.digits b hb)
    rw [List.forall_mem_cons] at hds
    have hb : (b == 0x30) = false := by simpa using hz
    have hne : ∀ k, isDigit k = false → (b == k) = false := fun k => beq_eq_false_of_isDigit hds.1
    have h0 : move mode enclosing b = .go (.number .whole) enclosing := by
      rcases hm with rfl | rfl
      · simp [move, valueMove, isBlank_eq_false_of_isDigit hds.1, hds.1, hb, hne quoteMark rfl,
          hne openList rfl, hne openObject rfl, hne minus rfl]
      · simp [move, NumberState.next?, hds.1, hb]
    rw [List.cons_append, skipFrom_go h0, skipFrom_run (fun b hb => (next?_digit hb).1) hds.2]
    exact hu.skipFrom_eq hv (.inr rfl) hr

theorem NumberText.skipFrom_eq {t : Bytes} (h : NumberText t) (hr : EndsNumber rest) :
    skipFrom .value enclosing (t ++ rest) = resume enclosing rest := by
  cases h with
  | @mk sign whole fraction exponent hs hw hf he =>
    simp only [List.append_assoc]
    simp only [List.mem_cons, List.not_mem_nil, or_false] at hs
    rcases hs with rfl | rfl
    · exact hw.skipFrom_eq hf he (.inl rfl) hr
    · have hsign : move .value enclosing minus = .go (.number .sign) enclosing := by rfl
      exact (skipFrom_go hsign _).trans (hw.skipFrom_eq hf he (.inr rfl) hr)

end

section
variable {part : Part} {t g rest : Bytes}

theorem skipFrom_item_eq (h : IsBegun t) (enclosing : List Bracket) :
    skipFrom .item enclosing t = skipFrom .value enclosing t := by
  have hc : ∀ c ∈ (skipBlanks t).head?, c ≠ closeList := fun c hc => (h.head c hc).1
  refine skipFrom_opened (fun b hb => ?_) (fun _ => value_blank _) ?_ rfl hc
  · simp [move, hb]
  · intro c hb hc
    simp [move, hb, hc]

theorem skipFrom_member_eq (h : IsBegun t) (enclosing : List Bracket) :
    skipFrom .member enclosing t = skipFrom .key enclosing t := by
  have hc : ∀ c ∈ (skipBlanks t).head?, c ≠ closeObject := fun c hc => (h.head c hc).2
  refine skipFrom_opened (fun b hb => ?_) (fun _ => key_blank _) ?_ rfl hc
  · simp [move, hb]
  · intro c hb hc
    simp [move, hb, hc]

/-- What a scan makes of a part of a text and goes on with. -/
def Skips : Part → Bytes → Prop
  | .value, t => ∀ enclosing rest, EndsNumber rest →
      skipFrom .value enclosing (t ++ rest) = resume enclosing rest
  | .item, t => ∀ b outer rest, EndsNumber rest →
      skipFrom .value (b :: outer) (t ++ rest) = skipFrom .after (b :: outer) rest
  | .items, t => ∀ outer rest,
      skipFrom .value (.list :: outer) (t ++ closeList :: rest) = resume outer rest
  | .member, t => ∀ outer rest, EndsNumber rest →
      skipFrom .key (.object :: outer) (t ++ rest) = skipFrom .after (.object :: outer) rest
  | .members, t => ∀ outer rest,
      skipFrom .key (.object :: outer) (t ++ closeObject :: rest) = resume outer rest

theorem Phrase.skips (h : Phrase part t) : Skips part t := by
  induction h with
  | word hw => exact fun enclosing rest _ => skipFrom_word hw enclosing rest
  | number h => exact fun enclosing rest hr => h.skipFrom_eq hr
  | string h =>
    intro enclosing rest _
    have hm : move .value enclosing quoteMark = .go (.text false) enclosing := by rfl
    rw [List.cons_append, skipFrom_go hm, List.append_assoc]
    exact skipFrom_text h false enclosing rest
  | emptyList hg =>
    intro enclosing rest _
    have hm : move .value enclosing openList = .go .item (.list :: enclosing) := by rfl
    rw [List.cons_append, skipFrom_go hm, List.append_assoc,
      skipFrom_gap (fun b hb => by simp [move, hb]) hg]
    exact skipFrom_closing (by rfl) rest
  | list h ih =>
    intro enclosing rest _
    have hm : move .value enclosing openList = .go .item (.list :: enclosing) := by rfl
    rw [List.cons_append, skipFrom_go hm, List.append_assoc]
    exact (skipFrom_item_eq (h.isBegun.append _) _).trans (ih enclosing rest)
  | emptyObject hg =>
    intro enclosing rest _
    have hm : move .value enclosing openObject = .go .member (.object :: enclosing) := by rfl
    rw [List.cons_append, skipFrom_go hm, List.append_assoc,
      skipFrom_gap (fun b hb => by simp [move, hb]) hg]
    exact skipFrom_closing (by rfl) rest
  | object h ih =>
    intro enclosing rest _
    have hm : move .value enclosing openObject = .go .member (.object :: enclosing) := by rfl
    rw [List.cons_append, skipFrom_go hm, List.append_assoc]
    exact (skipFrom_member_eq (h.isBegun.append _) _).trans (ih enclosing rest)
  | item ha _ hb ih =>
    intro b outer rest hr
    rw [List.append_assoc, List.append_assoc, skipFrom_gap (fun b => value_blank _) ha,
      ih _ _ (endsNumber_gap_append hb hr)]
    exact skipFrom_gap (fun _ => after_blank b outer) hb rest
  | lastItem _ ih =>
    intro outer rest
    rw [ih .list outer _ (endsNumber_cons (by decide))]
    exact skipFrom_closing (by rfl) rest
  | items _ _ iht ihu =>
    intro outer rest
    have hm : move .after (.list :: outer) comma = .go .value (.list :: outer) := by rfl
    rw [List.append_assoc, List.cons_append, iht .list outer _ (endsNumber_cons (by decide)),
      skipFrom_go hm, ihu]
  | @member a k b t ha hk hb _ ih =>
    intro outer rest hr
    have hq : move .key (.object :: outer) quoteMark = .go (.text true) (.object :: outer) := by rfl
    have hc : move .colon (.object :: outer) colon = .go .value (.object :: outer) := by rfl
    simp only [List.append_assoc, List.cons_append]
    rw [skipFrom_gap (fun _ => key_blank _) ha, skipFrom_go hq, skipFrom_text hk, if_pos rfl,
      skipFrom_gap (fun _ => colon_blank _) hb, skipFrom_go hc]
    exact ih .object outer rest hr
  | lastMember _ ih =>
    intro outer rest
    rw [ih outer _ (endsNumber_cons (by decide))]
    exact skipFrom_closing (by rfl) rest
  | members _ _ iht ihu =>
    intro outer rest
    have hm : move .after (.object :: outer) comma = .go .key (.object :: outer) := by rfl
    rw [List.append_assoc, List.cons_append, iht outer _ (endsNumber_cons (by decide)),
      skipFrom_go hm, ihu]

/-- A value is passed over, up to what stands behind it. -/
theorem Phrase.skipValue_eq (h : Phrase .value t) (hr : EndsNumber rest) :
    skipValue (t ++ rest) = .ok rest :=
  h.skips [] rest hr

end

end SharedCanvas.Json
