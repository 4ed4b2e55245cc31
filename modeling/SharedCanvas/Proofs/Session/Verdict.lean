import SharedCanvas.Proofs.Session.Greeting
import Mathlib.Data.List.Infix
import Mathlib.Order.Bounds.Basic

namespace SharedCanvas.Handshake

def mark : Bytes := [0x0D, 0x0A, 0x0D, 0x0A]

def markEnds (bs : Bytes) : Set Nat := {n | n ≤ bs.length ∧ mark <:+ bs.take n}

variable {bs : Bytes} {n : Nat}

theorem exists_headEndFrom_mark (seen : Nat) (before : Bytes) :
    ∃ n, headEndFrom seen (before ++ mark) = some n := by
  induction before generalizing seen with
  | nil => exact ⟨seen + 4, rfl⟩
  | cons b before ih =>
    rw [List.cons_append, headEndFrom_cons]
    split
    · exact ⟨seen + 4, rfl⟩
    · exact ih (seen + 1)

theorem exists_mark_of_headEndFrom {seen : Nat} (h : headEndFrom seen bs = some n) :
    ∃ before after, bs = before ++ mark ++ after ∧ n = seen + before.length + 4 := by
  induction bs generalizing seen with
  | nil => simp [headEndFrom] at h
  | cons b bs ih =>
    rw [headEndFrom_cons] at h
    split at h
    · rename_i hm
      refine ⟨[], (b :: bs).drop 4, ?_, (Option.some.inj h).symm⟩
      rw [List.nil_append, mark, ← hm, List.take_append_drop]
    · obtain ⟨before, after, rfl, rfl⟩ := ih h
      exact ⟨b :: before, after, rfl, by rw [List.length_cons]; omega⟩

theorem headEnd?_eq_none_iff : headEnd? bs = none ↔ ¬ mark <:+: bs := by
  constructor
  · rintro h ⟨before, after, rfl⟩
    obtain ⟨n, hn⟩ := exists_headEndFrom_mark 0 before
    rw [headEnd?, headEndFrom_append hn] at h
    exact absurd h (by simp)
  · intro h
    rw [Option.eq_none_iff_forall_ne_some]
    intro n hn
    obtain ⟨before, after, rfl, -⟩ := exists_mark_of_headEndFrom hn
    exact h ⟨before, after, rfl⟩

/-- The head ends behind the first mark. -/
theorem isLeast_of_headEnd? (h : headEnd? bs = some n) : IsLeast (markEnds bs) n := by
  constructor
  · obtain ⟨before, after, rfl, rfl⟩ := exists_mark_of_headEndFrom h
    have hl : (before ++ mark).length = 0 + before.length + 4 := by
      rw [List.length_append, Nat.zero_add]
      rfl
    rw [← hl]
    refine ⟨by simp, ?_⟩
    rw [List.take_left]
    exact List.suffix_append before mark
  · rintro m ⟨hm, before, ht⟩
    obtain ⟨k, hk⟩ := exists_headEndFrom_mark 0 before
    have hl := (le_of_headEndFrom hk).2
    rw [ht] at hk hl
    have hb := headEndFrom_append hk (bs.drop m)
    rw [List.take_append_drop] at hb
    rw [headEnd?, hb, Option.some.injEq] at h
    rw [List.length_take] at hl
    omega

theorem headEnd?_take (h : headEnd? bs = some n) : headEnd? (bs.take n) = some n := by
  have hs : headEnd? (bs.take n ++ bs.drop n) = some n := by rwa [List.take_append_drop]
  have hn := (le_of_headEndFrom h).2
  cases ht : headEnd? (bs.take n) with
  | none =>
    have hl := lt_of_headEndFrom_append ht hs
    rw [List.length_take] at hl
    omega
  | some m => exact (headEndFrom_append ht (bs.drop n)).symm.trans hs

theorem process_take (h : headEnd? bs = some n) : process (bs.take n) = process bs := by
  rw [process, process, headEnd?_take h, h]
  dsimp only
  rw [List.take_take, Nat.min_self]

theorem judge_ne_incomplete (r : Request) (n : Nat) : judge r n ≠ .ok .incomplete := by
  unfold judge
  split
  · simp
  · split
    · simp
    · split <;> simp

theorem process_eq_incomplete_iff :
    process bs = .ok .incomplete ↔ ¬ mark <:+: bs ∧ bs.length ≤ maxHead := by
  rw [← headEnd?_eq_none_iff, process]
  cases headEnd? bs with
  | none =>
    dsimp only
    split
    · simp; omega
    · simp; omega
  | some n =>
    dsimp only
    simp only [reduceCtorEq, false_and, iff_false]
    split
    · simp
    · split
      · simp
      · exact judge_ne_incomplete _ _

/-- A verdict other than to wait stands whatever comes next. One that accepts the request names the
end of the first mark, and is the same whatever stands behind it. To wait is the verdict exactly
while there is no mark and few enough bytes. -/
theorem verdict_of_head (bs : Bytes) :
    (process bs ≠ .ok .incomplete → ∀ more, process (bs ++ more) = process bs) ∧
      (∀ v, process bs = .ok v → v ≠ .incomplete →
        IsLeast (markEnds bs) v.consumed ∧ v.consumed ≤ min bs.length maxHead ∧
          ∀ rest, process (bs.take v.consumed ++ rest) = .ok v) ∧
      (process bs = .ok .incomplete ↔ ¬ mark <:+: bs ∧ bs.length ≤ maxHead) := by
  refine ⟨process_append, ?_, process_eq_incomplete_iff⟩
  intro v hv hi
  obtain ⟨he, hm⟩ := headEnd?_of_process hv hi
  refine ⟨isLeast_of_headEnd? he, le_min (consumed_le_length hv hi) hm, ?_⟩
  intro rest
  have ht : process (bs.take v.consumed) = .ok v := (process_take he).trans hv
  rw [process_append (by rwa [ht, ne_eq, Except.ok.injEq]) rest, ht]

/-- A page is asked for, and the mark is followed by half of another. -/
theorem verdict_of_head_page :
    let bs := Bytes.ofString "GET / HTTP/1.1\r\n\r\n\r\n"
    let v := Verdict.plain ⟨"GET", "/", "HTTP/1.1", []⟩ 18
    process bs = .ok v ∧ v ≠ .incomplete ∧
      process (bs ++ [0x0D, 0x0A]) = process bs ∧ IsLeast (markEnds bs) 18 ∧
        ∀ rest, process (bs.take 18 ++ rest) = .ok v := by
  intro bs v
  have hp : process bs = .ok v := by decide +kernel
  have hv : v ≠ .incomplete := by decide
  obtain ⟨hmore, hhead, -⟩ := verdict_of_head bs
  obtain ⟨hl, -, hrest⟩ := hhead v hp hv
  exact ⟨hp, hv, hmore (by rw [hp]; simp [hv]) _, hl, hrest⟩

end SharedCanvas.Handshake
