import SharedCanvas.Proofs.Frame.Written

namespace SharedCanvas.Frame

/-- Every whole frame at the front of the bytes, what is left of them, and what is wrong there. -/
def split (bs : Bytes) : List Frame × Bytes × Option ProtocolError :=
  match _h : decode bs with
  | .error e => ([], bs, some e)
  | .ok (.incomplete _) => ([], bs, none)
  | .ok (.complete frame consumed) =>
    let (frames, rest, fault) := split (bs.drop consumed)
    (frame :: frames, rest, fault)
termination_by bs.length
decreasing_by exact length_drop_lt_of_decode ‹_›

variable {bs more : Bytes} {frame : Frame} {n : Nat} {e : ProtocolError}

theorem split_of_error (h : decode bs = .error e) :
    split bs = ([], bs, some e) := by
  rw [split]
  split <;> simp_all

theorem split_of_incomplete (h : decode bs = .ok (.incomplete n)) :
    split bs = ([], bs, none) := by
  rw [split]
  split <;> simp_all

theorem split_of_complete (h : decode bs = .ok (.complete frame n)) :
    split bs = (frame :: (split (bs.drop n)).1, (split (bs.drop n)).2) := by
  rw [split]
  split
  · simp_all
  · simp_all
  · rename_i f m hd
    rw [h, Except.ok.injEq, Decoded.complete.injEq] at hd
    obtain ⟨rfl, rfl⟩ := hd
    rfl

theorem drop_append_of_complete (h : decode bs = .ok (.complete frame n)) (more : Bytes) :
    (bs ++ more).drop n = bs.drop n ++ more :=
  List.drop_append_of_le_length (consumed_of_decode h).2

theorem split_append_of_whole (h : decode bs = .ok (.complete frame bs.length)) (rest : Bytes) :
    split (bs ++ rest) = (frame :: (split rest).1, (split rest).2) := by
  rw [split_of_complete (decode_append_of_complete h rest), List.drop_left]

/-- Bytes that come later are split from where the earlier ones ended. -/
theorem split_append (h : (split bs).2.2 = none) (more : Bytes) : split (bs ++ more) =
    ((split bs).1 ++ (split ((split bs).2.1 ++ more)).1, (split ((split bs).2.1 ++ more)).2) := by
  induction bs using split.induct with
  | case1 bs e hd =>
    rw [split_of_error hd] at h
    simp at h
  | case2 bs n hd =>
    rw [split_of_incomplete hd, List.nil_append]
  | case3 bs frame n hd _ _ _ _ ih =>
    rw [split_of_complete hd] at h ⊢
    rw [split_of_complete (decode_append_of_complete hd more), drop_append_of_complete hd, ih h]
    rfl

theorem split_append_of_fault (h : (split bs).2.2 = some e) (more : Bytes) :
    split (bs ++ more) = ((split bs).1, (split bs).2.1 ++ more, some e) := by
  induction bs using split.induct with
  | case1 bs e' hd =>
    rw [split_of_error hd, Option.some.injEq] at h
    rw [split_of_error hd, split_of_error (decode_append_of_error hd more), h]
  | case2 bs n hd =>
    rw [split_of_incomplete hd] at h
    simp at h
  | case3 bs frame n hd _ _ _ _ ih =>
    rw [split_of_complete hd] at h ⊢
    rw [split_of_complete (decode_append_of_complete hd more), drop_append_of_complete hd, ih h]

section
variable {σ ε : Type} {step : σ → Frame → σ × Option ε} {s s' : σ}

theorem pump_of_error (h : decode bs = .error e) : pump step s bs = (s, bs, .malformed e) := by
  rw [pump]
  split <;> simp_all

theorem pump_of_incomplete (h : decode bs = .ok (.incomplete n)) :
    pump step s bs = (s, bs, .starved n) := by
  rw [pump]
  split <;> simp_all

theorem pump_of_complete (h : decode bs = .ok (.complete frame n)) : pump step s bs =
    match step s frame with
    | (s', some e) => (s', bs.drop n, .halted e)
    | (s', none) => pump step s' (bs.drop n) := by
  rw [pump]
  split
  · simp_all
  · simp_all
  · rename_i f m hd
    rw [h, Except.ok.injEq, Decoded.complete.injEq] at hd
    obtain ⟨rfl, rfl⟩ := hd
    rfl

theorem pump_of_halt {ε' : ε} (h : decode bs = .ok (.complete frame n))
    (hs : step s frame = (s', some ε')) : pump step s bs = (s', bs.drop n, .halted ε') := by
  rw [pump_of_complete h, hs]

theorem pump_of_step (h : decode bs = .ok (.complete frame n))
    (hs : step s frame = (s', none)) : pump step s bs = pump step s' (bs.drop n) := by
  rw [pump_of_complete h, hs]

theorem rest_of_pump {needed : Nat} (h : (pump step s bs).2.2 = .starved needed) :
    (split bs).2.2 = none ∧ (pump step s bs).2.1 = (split bs).2.1 := by
  induction bs using split.induct generalizing s with
  | case1 bs e hd =>
    rw [pump_of_error hd] at h
    simp at h
  | case2 bs n hd =>
    rw [pump_of_incomplete hd, split_of_incomplete hd]
    exact ⟨rfl, rfl⟩
  | case3 bs frame n hd _ _ _ _ ih =>
    rcases hs : step s frame with ⟨s', _ | e⟩
    · rw [pump_of_step hd hs] at h ⊢
      rw [split_of_complete hd]
      exact ih h
    · rw [pump_of_halt hd hs] at h
      simp at h

end

end SharedCanvas.Frame
