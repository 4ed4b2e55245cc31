import SharedCanvas.Handshake

namespace SharedCanvas.Handshake

theorem headEndFrom_cons (seen : Nat) (b : UInt8) (bs : Bytes) : headEndFrom seen (b :: bs) =
    if (b :: bs).take 4 = [0x0D, 0x0A, 0x0D, 0x0A] then some (seen + 4)
    else headEndFrom (seen + 1) bs := by
  rw [headEndFrom.eq_def]
  split
  · rename_i h
    rw [h]
    exact (if_pos rfl).symm
  · rename_i hne h
    rw [List.cons.injEq] at h
    obtain ⟨rfl, rfl⟩ := h
    rw [if_neg]
    intro ht
    match bs, ht with
    | c :: d :: e :: rest, ht =>
      simp only [List.take_succ_cons, List.take_zero, List.cons.injEq, and_true] at ht
      obtain ⟨rfl, rfl, rfl, rfl⟩ := ht
      exact hne rest rfl rfl
  · rename_i h
    simp at h

theorem le_of_headEndFrom {seen n : Nat} {bs : Bytes} (h : headEndFrom seen bs = some n) :
    seen + 4 ≤ n ∧ n ≤ seen + bs.length := by
  induction bs generalizing seen with
  | nil => simp [headEndFrom] at h
  | cons b bs ih =>
    rw [headEndFrom_cons] at h
    rw [List.length_cons]
    by_cases ht : (b :: bs).take 4 = [0x0D, 0x0A, 0x0D, 0x0A]
    · rw [if_pos ht, Option.some.injEq] at h
      have hl := congrArg List.length ht
      simp only [List.length_take, List.length_cons, List.length_nil] at hl
      omega
    · rw [if_neg ht] at h
      have := ih h
      omega

theorem headEndFrom_append {seen n : Nat} {bs : Bytes} (h : headEndFrom seen bs = some n)
    (more : Bytes) : headEndFrom seen (bs ++ more) = some n := by
  induction bs generalizing seen with
  | nil => simp [headEndFrom] at h
  | cons b bs ih =>
    have hl := (le_of_headEndFrom h).2
    have hn := (le_of_headEndFrom h).1
    have ht : ((b :: bs) ++ more).take 4 = (b :: bs).take 4 :=
      List.take_append_of_le_length (by omega)
    rw [List.cons_append] at ht ⊢
    rw [headEndFrom_cons] at h ⊢
    rw [ht]
    split
    · rename_i hp
      rwa [if_pos hp] at h
    · rename_i hp
      rw [if_neg hp] at h
      exact ih h

theorem lt_of_headEndFrom_append {seen n : Nat} {bs more : Bytes}
    (h : headEndFrom seen bs = none) (hm : headEndFrom seen (bs ++ more) = some n) :
    seen + bs.length < n := by
  induction bs generalizing seen with
  | nil =>
    have := (le_of_headEndFrom hm).1
    rw [List.length_nil]
    omega
  | cons b bs ih =>
    rw [headEndFrom_cons] at h
    rw [List.cons_append, headEndFrom_cons] at hm
    rw [List.length_cons]
    split at h
    · simp at h
    · rename_i hp
      split at hm
      · -- The last byte of the mark is among the later ones.
        rename_i hq
        have hl : (b :: bs).length < 4 := by
          apply Nat.lt_of_not_le
          intro hl
          have ht : ((b :: bs) ++ more).take 4 = (b :: bs).take 4 :=
            List.take_append_of_le_length hl
          rw [List.cons_append] at ht
          exact hp (ht ▸ hq)
        rw [Option.some.injEq] at hm
        rw [List.length_cons] at hl
        omega
      · have := ih h hm
        omega

theorem process_append {bs : Bytes} (h : process bs ≠ .ok .incomplete) (more : Bytes) :
    process (bs ++ more) = process bs := by
  unfold process at h ⊢
  cases hb : headEnd? bs with
  | none =>
    simp only [hb] at h ⊢
    split at h
    · rename_i hl
      rw [if_pos hl]
      cases hm : headEnd? (bs ++ more) with
      | none =>
        dsimp only
        rw [if_pos (by rw [List.length_append]; omega)]
      | some n =>
        -- A head that ends only among the later bytes is too long as well.
        have hn := lt_of_headEndFrom_append hb hm
        dsimp only
        rw [if_pos (by omega)]
    · exact absurd rfl h
  | some n =>
    have hn := (le_of_headEndFrom hb).2
    have hm : headEnd? (bs ++ more) = some n := headEndFrom_append hb more
    simp only [hm]
    rw [List.take_append_of_le_length (by omega)]

def Verdict.consumed : Verdict → Nat
  | .incomplete => 0
  | .upgraded _ consumed | .plain _ consumed => consumed

theorem consumed_of_judge {r : Request} {n : Nat} {v : Verdict} (h : judge r n = .ok v) :
    v.consumed = n := by
  unfold judge at h
  split at h
  · rw [Except.ok.injEq] at h
    exact h ▸ rfl
  · split at h
    · simp at h
    · split at h
      · simp at h
      · rw [Except.ok.injEq] at h
        exact h ▸ rfl

/-- A request that has come whole ends at the first empty line, within the bytes that are read. -/
theorem headEnd?_of_process {bs : Bytes} {v : Verdict} (h : process bs = .ok v)
    (hv : v ≠ .incomplete) : headEnd? bs = some v.consumed ∧ v.consumed ≤ maxHead := by
  unfold process at h
  split at h
  · split at h
    · simp at h
    · rw [Except.ok.injEq] at h
      exact absurd h.symm hv
  · rename_i n hn
    split at h
    · simp at h
    · rename_i hl
      split at h
      · simp at h
      · rw [consumed_of_judge h]
        exact ⟨hn, Nat.le_of_not_lt hl⟩

theorem consumed_le_length {bs : Bytes} {v : Verdict} (h : process bs = .ok v)
    (hv : v ≠ .incomplete) : v.consumed ≤ bs.length := by
  have := (le_of_headEndFrom (headEnd?_of_process h hv).1).2
  omega

end SharedCanvas.Handshake
