import SharedCanvas.Proofs.Json.Spelling

namespace SharedCanvas.Json

/-- A scan that leaves some text has seen the end of what it read: it leaves more text too. -/
def Settles {α : Type} (scan : Bytes → Scan α) : Prop :=
  ∀ ⦃s a r⦄, scan s = .ok (a, r) → r ≠ [] → ∀ t, scan (s ++ t) = .ok (a, r ++ t)

/-- What is read shows its own end, also where it ends the text. -/
def Delimits {α : Type} (scan : Bytes → Scan α) : Prop :=
  ∀ ⦃s a r⦄, scan s = .ok (a, r) → ∀ t, scan (s ++ t) = .ok (a, r ++ t)

theorem Delimits.settles {α : Type} {scan : Bytes → Scan α} (h : Delimits scan) : Settles scan :=
  fun _ _ _ hs _ => h hs

theorem readUnit_delimits : Delimits readUnit := by
  intro s n r h t
  unfold readUnit at h
  split at h
  · rename_i a b c d u
    simp only [List.cons_append, readUnit]
    split at h
    · simp_all
    · simp at h
  · simp at h

theorem readUnicode_delimits : Delimits readUnicode := by
  intro s b r h t
  unfold readUnicode at h ⊢
  split at h
  · simp at h
  · rename_i n u hu
    simp only [readUnit_delimits hu t]
    split at h
    · simp at h
    · rename_i hn
      rw [if_neg hn]
      split at h
      · rename_i hl
        rw [if_pos hl]
        -- The second surrogate must follow, as an escape of its own.
        rcases u with _ | ⟨c, _ | ⟨d, u⟩⟩
        · simp at h
        · dsimp only at h
          split at h <;> simp at h
        · dsimp only [List.cons_append] at h ⊢
          split at h
          · simp at h
          · rename_i hc
            rw [if_neg hc]
            split at h
            · simp at h
            · rename_i hd
              rw [if_neg hd]
              split at h
              · simp at h
              · rename_i m v hm
                simp only [readUnit_delimits hm t]
                split at h <;> simp_all
      · simp_all

theorem readEscape_delimits : Delimits readEscape := by
  intro s b r h t
  cases s with
  | nil => simp [readEscape] at h
  | cons c s =>
    simp only [readEscape, List.cons_append] at h ⊢
    split at h
    · simp_all
    · split at h
      · rename_i hc
        rw [if_pos hc]
        exact readUnicode_delimits h t
      · simp at h

theorem readText_delimits (b : Bytes) : Delimits (readText b) := by
  intro s a r h t
  unfold readText at h ⊢
  split at h
  · rename_i hb
    cases h
    rw [if_pos hb]
  · simp at h

theorem readString_delimits (seen : Bytes) : Delimits (readString seen) := by
  intro s b r h t
  fun_induction readString seen s with
  | case1 => simp at h
  | case2 seen c s hq =>
    rw [List.cons_append, readString, if_pos hq]
    exact readText_delimits _ h t
  | case3 => simp at h
  | case4 seen c s _ hc b' r' he _ ih =>
    obtain rfl : c = backslash := by simpa using hc
    rw [List.cons_append, readString_escape (readEscape_delimits he t), ih h]
  | case5 => simp at h
  | case6 seen c s hq hc hs ih =>
    rw [List.cons_append, readString, if_neg hq, if_neg hc, if_neg hs, ih h]

theorem spanDigits_append_of_ne_nil {s : Bytes} (h : (spanDigits s).2 ≠ []) (t : Bytes) :
    spanDigits (s ++ t) = ((spanDigits s).1, (spanDigits s).2 ++ t) := by
  induction s with
  | nil => simp [spanDigits] at h
  | cons c s ih =>
    by_cases hc : isDigit c = true
    · simp only [spanDigits, List.cons_append, List.dropWhile_cons_of_pos hc,
        List.takeWhile_cons_of_pos hc, List.map_cons] at h ih ⊢
      rw [(Prod.mk.inj (ih h)).1, (Prod.mk.inj (ih h)).2]
    · simp [spanDigits, hc]

theorem readDigits_settles : Settles readDigits := by
  intro s ds r h hr t
  have hs := spanDigits_append_of_ne_nil (s := s) (t := t)
  unfold readDigits at h ⊢
  cases hd : spanDigits s with
  | mk es u =>
    rw [hd] at h hs
    cases es with
    | nil => cases u <;> simp at h
    | cons e es =>
      cases h
      rw [hs hr]

theorem readWhole_settles : Settles readWhole := by
  intro s ds r h hr t
  cases s with
  | nil => simp [readWhole] at h
  | cons c s =>
    simp only [readWhole, List.cons_append] at h ⊢
    split at h
    · rename_i hc
      rw [if_pos hc]
      cases s with
      | nil => simp_all
      | cons d s =>
        simp only [List.cons_append] at h ⊢
        split at h
        · simp at h
        · rename_i hd
          cases h
          rw [if_neg hd]
          rfl
    · rename_i hc
      rw [if_neg hc]
      split at h
      · rename_i hd
        rw [if_pos hd]
        simp only [Except.ok.injEq] at h
        rw [← List.cons_append, spanDigits_append_of_ne_nil (by rw [h]; exact hr), h]
      · simp at h

theorem readFraction_settles : Settles readFraction := by
  intro s ds r h hr t
  cases s with
  | nil => simp_all [readFraction]
  | cons c s =>
    simp only [readFraction, List.cons_append] at h ⊢
    split at h
    · rename_i hc
      rw [if_pos hc]
      exact readDigits_settles h hr t
    · rename_i hc
      cases h
      rw [if_neg hc]
      rfl

theorem readSign_append {s : Bytes} (h : s ≠ []) (t : Bytes) :
    readSign (s ++ t) = ((readSign s).1, (readSign s).2 ++ t) := by
  obtain ⟨c, s, rfl⟩ := List.exists_cons_of_ne_nil h
  simp only [readSign, List.cons_append]
  split
  · rfl
  · split <;> rfl

theorem readExponent_settles : Settles readExponent := by
  intro s e r h hr t
  cases s with
  | nil => simp_all [readExponent]
  | cons c s =>
    simp only [readExponent, List.cons_append] at h ⊢
    split at h
    · rename_i hc
      rw [if_pos hc]
      split at h
      · simp at h
      · rename_i ds u hd
        have hs : s ≠ [] := by
          rintro rfl
          simp [readSign, readDigits, spanDigits] at hd
        simp only [Except.ok.injEq, Prod.mk.injEq] at h
        obtain ⟨rfl, rfl⟩ := h
        rw [readSign_append hs, readDigits_settles hd hr]
    · rename_i hc
      cases h
      rw [if_neg hc]
      rfl

theorem readUnsigned_settles (negative : Bool) : Settles (readUnsigned negative) := by
  intro s n r h hr t
  unfold readUnsigned at h ⊢
  split at h
  · simp at h
  · rename_i w u hw
    split at h
    · simp at h
    · rename_i f v hf
      split at h
      · simp at h
      · rename_i e x he
        simp only [Except.ok.injEq, Prod.mk.injEq] at h
        obtain ⟨rfl, rfl⟩ := h
        -- What is left at the end was left by every part before.
        have hv : v ≠ [] := by
          have := length_readExponent he
          have := List.length_pos_of_ne_nil hr
          exact List.ne_nil_of_length_pos (by omega)
        have hu : u ≠ [] := by
          have := length_readFraction hf
          have := List.length_pos_of_ne_nil hv
          exact List.ne_nil_of_length_pos (by omega)
        simp only [readWhole_settles hw hu t, readFraction_settles hf hv t,
          readExponent_settles he hr t]

theorem readNumeral_settles : Settles readNumeral := by
  intro s n r h hr t
  cases s with
  | nil => simp [readNumeral] at h
  | cons c s =>
    simp only [readNumeral, List.cons_append] at h ⊢
    split at h
    · rename_i hc
      rw [if_pos hc]
      exact readUnsigned_settles true h hr t
    · rename_i hc
      rw [if_neg hc]
      exact readUnsigned_settles false h hr t

theorem integer_settles (max : Nat) : Settles (integer max).run := by
  intro s n r h hr t
  change readInteger max s = _ at h
  change readInteger max (s ++ t) = _
  unfold readInteger at h ⊢
  split at h
  · simp at h
  · rename_i c u hs
    rw [skipBlanks_append_of_eq_cons hs]
    dsimp only
    split at h
    · rename_i hc
      rw [if_pos hc]
      split at h
      · simp at h
      · rename_i m v hm
        split at h
        · simp at h
        · simp at h
        · rename_i hi
          split at h
          · rename_i hle
            cases h
            rw [← List.cons_append, readNumeral_settles hm hr t]
            simp only [hi, if_pos hle]
          · simp at h
    · simp at h

theorem skipFrom_append {mode : Mode} {enclosing : List Bracket} {s r : Bytes}
    (h : skipFrom mode enclosing s = .ok r) (hr : r ≠ []) (t : Bytes) :
    skipFrom mode enclosing (s ++ t) = .ok (r ++ t) := by
  fun_induction skipFrom mode enclosing s with
  | case1 => exact absurd (eq_nil_of_atEnd h) hr
  | case2 mode enclosing c s mode' enclosing' hm ih =>
    rw [List.cons_append, skipFrom_go hm, ih h]
  | case3 mode enclosing c mode' enclosing' hm a b d e s hu ih =>
    obtain ⟨n, hn⟩ := Option.isSome_iff_exists.1 hu
    simp only [List.cons_append]
    rw [skipFrom_digits hm hn, ih h]
  | case4 => simp at h
  | case5 => simp at h
  | case6 mode enclosing c s hm =>
    cases h
    rw [List.cons_append, skipFrom, hm]
  | case7 mode enclosing c s hm =>
    cases h
    rw [List.cons_append, skipFrom, hm]
  | case8 => simp at h

theorem expect_append {b : UInt8} {s r : Bytes} (h : expect b s = .ok r) (t : Bytes) :
    expect b (s ++ t) = .ok (r ++ t) := by
  unfold expect at h ⊢
  split at h
  · simp at h
  · rename_i hs
    rw [skipBlanks_append_of_eq_cons hs]
    split at h
    · rename_i hc
      cases h
      exact if_pos hc
    · simp at h

def NextItem.append (t : Bytes) : NextItem → NextItem
  | .closed r => .closed (r ++ t)
  | .item r => .item (r ++ t)

theorem nextItem_append {first : Bool} {s : Bytes} {n : NextItem} (h : nextItem first s = .ok n)
    (t : Bytes) : nextItem first (s ++ t) = .ok (n.append t) := by
  unfold nextItem at h ⊢
  split at h
  · simp at h
  · rename_i hs
    rw [skipBlanks_append_of_eq_cons hs]
    dsimp only
    split at h
    · rename_i hc
      cases h
      exact if_pos hc
    · rename_i hc
      rw [if_neg hc]
      split at h
      · rename_i hf
        cases h
        exact if_pos hf
      · rename_i hf
        rw [if_neg hf]
        split at h
        · rename_i hm
          rw [if_pos hm]
          split at h
          · simp at h
          · rename_i hu
            rw [skipBlanks_append_of_eq_cons hu]
            dsimp only
            split at h
            · simp at h
            · rename_i hd
              cases h
              exact if_neg hd
        · simp at h

def NextKey.append (t : Bytes) : NextKey → NextKey
  | .closed r => .closed (r ++ t)
  | .key name r => .key name (r ++ t)

theorem readKey_append {s : Bytes} {n : NextKey} (h : readKey s = .ok n) (t : Bytes) :
    readKey (s ++ t) = .ok (n.append t) := by
  unfold readKey at h ⊢
  split at h
  · simp at h
  · rename_i hk
    cases h
    rw [readString_delimits [] hk t]
    rfl

theorem nextKey_append {first : Bool} {s : Bytes} {n : NextKey} (h : nextKey first s = .ok n)
    (t : Bytes) : nextKey first (s ++ t) = .ok (n.append t) := by
  unfold nextKey at h ⊢
  split at h
  · simp at h
  · rename_i hs
    rw [skipBlanks_append_of_eq_cons hs]
    dsimp only
    split at h
    · rename_i hc
      cases h
      exact if_pos hc
    · rename_i hc
      rw [if_neg hc]
      split at h
      · rename_i hf
        rw [if_pos hf]
        split at h
        · rename_i hq
          rw [if_pos hq, readKey_append h]
        · simp at h
      · rename_i hf
        rw [if_neg hf]
        split at h
        · rename_i hm
          rw [if_pos hm]
          split at h
          · simp at h
          · rename_i hu
            rw [skipBlanks_append_of_eq_cons hu]
            dsimp only
            split at h
            · rename_i hq
              rw [if_pos hq, readKey_append h]
            · simp at h
        · simp at h

section
variable {α β σ : Type}

theorem Settles.map {reader : Reader α} (h : Settles reader.run) (f : α → β) :
    Settles (reader.map f).run := by
  intro s b r hs hr t
  simp only [Reader.map] at hs ⊢
  split at hs
  · simp at hs
  · rename_i ha
    cases hs
    rw [h ha hr]

theorem readMembers_delimits {fields : List (Field σ)}
    (hf : ∀ f ∈ fields, ∀ d, Settles (f.value d).run) (draft : σ) (first : Bool) :
    Delimits (readMembers fields draft first) := by
  intro s out r h t
  have hend : ∀ {d : σ} {u : Bytes}, readMembers fields d false u = .ok (out, r) → u ≠ [] := by
    rintro d u hu rfl
    rw [readMembers_eq] at hu
    simp [nextKey, skipBlanks] at hu
  fun_induction readMembers fields draft first s with
  | case2 draft first s r hk =>
    cases h
    rw [readMembers_eq, nextKey_append hk]
    rfl
  | case5 draft first s name u hk hn v hc w hv _ _ _ ih =>
    have hw : w ≠ [] := hend h
    rw [readMembers_other (nextKey_append hk t) hn (expect_append hc t) (skipFrom_append hv hw t),
      ih h]
  | case9 draft first s name u hk field hs hg v hc d w hv _ _ _ ih =>
    have hw : w ≠ [] := hend h
    have hfield := hf field (List.mem_of_find?_eq_some hs) draft hv hw t
    rw [readMembers_key (nextKey_append hk t) hs (Bool.eq_false_iff.2 hg) (expect_append hc t)
      hfield, ih h]
  | _ => simp at h

theorem readFields_delimits {fields : List (Field σ)}
    (hf : ∀ f ∈ fields, ∀ d, Settles (f.value d).run) (draft : σ) (first : Bool) :
    Delimits (readFields fields draft first) := by
  intro s out r h t
  induction fields generalizing draft first s with
  | nil =>
    simp only [readFields] at h ⊢
    split at h
    · simp at h
    · rename_i he
      cases h
      rw [expect_append he]
  | cons f fields ih =>
    rw [List.forall_mem_cons] at hf
    simp only [readFields] at h ⊢
    split at h
    · simp at h
    · simp at h
    · rename_i u hn
      rw [nextItem_append hn]
      simp only [NextItem.append]
      split at h
      · simp at h
      · rename_i d v hv
        have hne : v ≠ [] := by
          rintro rfl
          cases fields <;> simp [readFields, expect, nextItem, skipBlanks] at h
        rw [hf.1 draft hv hne]
        exact ih hf.2 d false h

theorem Shape.close_append {shape : Shape σ α} {x y : Scan σ} {a : α} {r : Bytes}
    (h : shape.close x = .ok (a, r)) {t : Bytes}
    (hx : ∀ {d u}, x = .ok (d, u) → y = .ok (d, u ++ t)) : shape.close y = .ok (a, r ++ t) := by
  obtain ⟨d, rfl, hd⟩ := close_eq_ok h
  rw [hx rfl]
  simp only [close, hd]

theorem Shape.reader_delimits {shape : Shape σ α}
    (hf : ∀ f ∈ shape.fields, ∀ d, Settles (f.value d).run) : Delimits shape.reader.run := by
  intro s a r h t
  change shape.read s = _ at h
  change shape.read (s ++ t) = _
  unfold read at h ⊢
  split at h
  · simp at h
  · rename_i hs
    rw [skipBlanks_append_of_eq_cons hs]
    dsimp only
    split at h
    · rename_i hc
      rw [if_pos hc]
      exact close_append h fun hm => readMembers_delimits hf _ _ hm t
    · rename_i hc
      rw [if_neg hc]
      split at h
      · rename_i hl
        rw [if_pos hl]
        exact close_append h fun hm => readFields_delimits hf _ _ hm t
      · simp at h

theorem readStream_seen (reader : Reader α) (seen : List α) (s : Bytes) :
    readStream reader seen s =
      (seen.reverse ++ (readStream reader [] s).1, (readStream reader [] s).2) := by
  induction hn : s.length using Nat.strongRecOn generalizing seen s with
  | ind n ih =>
    rw [readStream_eq reader seen, readStream_eq reader []]
    split
    · simp
    · split
      · simp
      · rename_i a r hr
        have hlt : r.length < n := hn ▸ reader.shrinks hr
        rw [ih _ hlt (a :: seen) r rfl, ih _ hlt [a] r rfl]
        simp

theorem readStream_skipBlanks {reader : Reader α} (h : reader.IgnoresBlanks) (seen : List α)
    (s : Bytes) : readStream reader seen (skipBlanks s) = readStream reader seen s := by
  rw [readStream_eq reader seen (skipBlanks s), skipBlanks_skipBlanks, h, ← readStream_eq]

/-- A stream without a fault goes on with what stands behind it. -/
theorem readStream_append {reader : Reader α} (hd : Delimits reader.run)
    (hb : reader.IgnoresBlanks) {a : Bytes} {as : List α} {seen : List α}
    (h : readStream reader seen a = (as, none)) (b : Bytes) :
    readStream reader seen (a ++ b) = readStream reader as.reverse b := by
  fun_induction readStream reader seen a with
  | case1 seen a hs =>
    cases h
    have hskip : skipBlanks (a ++ b) = skipBlanks b := by
      rw [skipBlanks, List.dropWhile_append]
      exact if_pos hs
    rw [List.reverse_reverse, ← readStream_skipBlanks hb seen (a ++ b), hskip,
      readStream_skipBlanks hb]
  | case2 => simp at h
  | case3 seen a hs x r hx _ ih =>
    have hne : ¬(skipBlanks (a ++ b)).isEmpty = true := by
      obtain ⟨c, u, hu⟩ := List.exists_cons_of_ne_nil (mt List.isEmpty_iff.2 hs)
      rw [skipBlanks_append_of_eq_cons hu]
      exact Bool.false_ne_true
    rw [readStream_eq, if_neg hne, hd hx b]
    exact ih h

end

end Json

open Json Bytes

namespace Pixel

theorem envelope_delimits : Delimits envelope.reader.run := by
  have hshape : Delimits shape.reader.run := by
    refine Shape.reader_delimits ?_
    simp only [shape, List.forall_mem_cons]
    exact ⟨fun d => ((integer_settles _).map _).map _, fun d => ((integer_settles _).map _).map _,
      fun d => ((integer_settles _).map _).map _, fun _ h => absurd h List.not_mem_nil⟩
  refine Shape.reader_delimits ?_
  simp only [envelope, List.forall_mem_cons]
  exact ⟨fun d => hshape.settles.map _, fun _ h => absurd h List.not_mem_nil⟩

/-- Text without a fault gives its pixels, and then what stands behind it is read as if it stood
alone. So envelopes are never lost by what follows them. -/
theorem ofText_append (a b : Bytes) :
    (∀ ps, ofText a = (ps, none) → ofText (a ++ b) = (ps ++ (ofText b).1, (ofText b).2)) ∧
      ∀ ps, MessageText ps a → ps <+: (ofText (a ++ b)).1 := by
  have happend : ∀ ps, ofText a = (ps, none) →
      ofText (a ++ b) = (ps ++ (ofText b).1, (ofText b).2) := by
    intro ps h
    have hr := readStream_append envelope_delimits envelope.ignoresBlanks h b
    rw [readStream_seen _ ps.reverse, List.reverse_reverse] at hr
    exact hr
  refine ⟨happend, ?_⟩
  intro ps h
  rw [happend ps (h.readStream_eq [])]
  exact List.prefix_append ps _

/-- A message that ends inside its second envelope. -/
theorem ofText_append_cut :
    let a := ofString "[[1,2,3]]"
    let b := ofString " \x7b\"pixel\":"
    MessageText [⟨1, 2, 3⟩] a ∧ ofText a = ([⟨1, 2, 3⟩], none) ∧
      ofText (a ++ b) = ([⟨1, 2, 3⟩], some .cutShort) ∧ [⟨1, 2, 3⟩] <+: (ofText (a ++ b)).1 := by
  intro a b
  have hn : IsGap [] := by simp [IsGap]
  have hlist : RecordText (fieldTexts ⟨1, 2, 3⟩) _ :=
    .list (.cons hn rfl hn (.cons hn rfl hn (.last hn rfl hn)))
  have hm : MessageText [⟨1, 2, 3⟩] a := .cons hn (.list (.last hn hlist hn)) (.nil hn)
  have ha : ofText a = ([⟨1, 2, 3⟩], none) := hm.readStream_eq []
  have hb : ofText b = ([], some .cutShort) := by
    decide +kernel
  have h := ofText_append a b
  refine ⟨hm, ha, ?_, h.2 _ hm⟩
  rw [h.1 _ ha, hb]
  rfl

end Pixel
end SharedCanvas
