import SharedCanvas.Canvas.Basic

namespace SharedCanvas

/-- The colour that the pixels leave at a cell, if one of them is for it. The last one counts. -/
def Pixel.lastAt (x y : UInt16) : List Pixel → Option UInt8
  | [] => none
  | p :: ps => (lastAt x y ps).or (if x = p.x ∧ y = p.y then some p.color else none)

namespace Pixel

theorem lastAt_append (x y : UInt16) (ps qs : List Pixel) :
    lastAt x y (ps ++ qs) = (lastAt x y qs).or (lastAt x y ps) := by
  induction ps with
  | nil => rw [List.nil_append, lastAt, Option.or_none]
  | cons p ps ih => rw [List.cons_append, lastAt, ih, lastAt, Option.or_assoc]

theorem lastAt_singleton (x y : UInt16) (p : Pixel) :
    lastAt x y [p] = if x = p.x ∧ y = p.y then some p.color else none := by
  rw [lastAt, lastAt, Option.none_or]

theorem lastAt_eq_none {x y : UInt16} {ps : List Pixel} (h : ∀ p ∈ ps, ¬ (x = p.x ∧ y = p.y)) :
    lastAt x y ps = none := by
  induction ps with
  | nil => rfl
  | cons p ps ih =>
    rw [lastAt, ih fun q hq => h q (List.mem_cons_of_mem p hq), if_neg (h p List.mem_cons_self)]
    rfl

theorem isSome_lastAt {p : Pixel} {ps : List Pixel} (h : p ∈ ps) :
    (lastAt p.x p.y ps).isSome = true := by
  induction ps with
  | nil => exact absurd h List.not_mem_nil
  | cons q ps ih =>
    rw [lastAt, Option.isSome_or]
    rcases List.mem_cons.1 h with rfl | h
    · rw [if_pos ⟨rfl, rfl⟩, Option.isSome_some, Bool.or_true]
    · rw [ih h, Bool.true_or]

end Pixel

namespace Canvas
open Pixel (lastAt)

def pendingAt (c : Canvas) (x y : UInt16) : Option UInt8 :=
  if c.Holds x y then (c.pending[c.index x y]?).join else none

variable {c d : Canvas} {x y : UInt16} {p : Pixel}

theorem index_div (h : c.Holds x y) : c.index x y / c.width.toNat = y.toNat := by
  have hx : x.toNat < c.width.toNat := UInt16.lt_iff_toNat_lt.1 h.1
  rw [index, Nat.add_comm, Nat.add_mul_div_right _ _ (by omega), Nat.div_eq_of_lt hx, Nat.zero_add]

theorem index_mod (h : c.Holds x y) : c.index x y % c.width.toNat = x.toNat := by
  have hx : x.toNat < c.width.toNat := UInt16.lt_iff_toNat_lt.1 h.1
  rw [index, Nat.add_comm, Nat.add_mul_mod_self_right, Nat.mod_eq_of_lt hx]

theorem index_inj {x' y' : UInt16} (h : c.Holds x y) (h' : c.Holds x' y') :
    c.index x y = c.index x' y' ↔ x = x' ∧ y = y' := by
  constructor
  · intro hi
    constructor
    · rw [← UInt16.toNat_inj, ← index_mod h, hi, index_mod h']
    · rw [← UInt16.toNat_inj, ← index_div h, hi, index_div h']
  · rintro ⟨rfl, rfl⟩
    rfl

theorem holds_pixelAt {i : Nat} (h : i < c.area) (color : UInt8) :
    c.Holds (c.pixelAt i color).x (c.pixelAt i color).y ∧
      c.index (c.pixelAt i color).x (c.pixelAt i color).y = i := by
  have hw : 0 < c.width.toNat := by
    have := c.nonempty.1
    rw [Ne, ← UInt16.toNat_inj] at this
    exact Nat.pos_of_ne_zero this
  have hm : i % c.width.toNat < c.width.toNat := Nat.mod_lt i hw
  have hd : i / c.width.toNat < c.height.toNat := Nat.div_lt_of_lt_mul h
  have hx : (c.pixelAt i color).x.toNat = i % c.width.toNat := by
    rw [pixelAt, UInt16.toNat_ofNat', Nat.mod_eq_of_lt (Nat.lt_trans hm c.width.toNat_lt)]
  have hy : (c.pixelAt i color).y.toNat = i / c.width.toNat := by
    rw [pixelAt, UInt16.toNat_ofNat', Nat.mod_eq_of_lt (Nat.lt_trans hd c.height.toNat_lt)]
  refine ⟨⟨UInt16.lt_iff_toNat_lt.2 (hx ▸ hm), UInt16.lt_iff_toNat_lt.2 (hy ▸ hd)⟩, ?_⟩
  rw [index, hx, hy, Nat.mul_comm]
  exact Nat.div_add_mod i c.width.toNat

theorem holds_iff_of_eq (hw : d.width = c.width) (hh : d.height = c.height) :
    d.Holds x y ↔ c.Holds x y := by
  unfold Holds
  rw [hw, hh]

theorem area_eq_of_eq (hw : d.width = c.width) (hh : d.height = c.height) : d.area = c.area := by
  rw [area, area, hw, hh]

theorem index_eq_of_eq (hw : d.width = c.width) : d.index x y = c.index x y := by
  rw [index, index, hw]

theorem get?_eq_of_eq (hw : d.width = c.width) (hh : d.height = c.height)
    (hc : d.cells = c.cells) : d.get? x y = c.get? x y := by
  rw [get?, get?, hc, index_eq_of_eq hw]
  simp only [holds_iff_of_eq hw hh]

theorem get?_set (hw : d.width = c.width) (hh : d.height = c.height) (hp : c.Holds p.x p.y)
    (hd : d.cells = c.cells.setIfInBounds (c.index p.x p.y) p.color) :
    d.get? x y = if x = p.x ∧ y = p.y then some p.color else c.get? x y := by
  have hs : c.index p.x p.y < c.cells.size := c.size_cells ▸ index_lt hp
  by_cases hc : c.Holds x y
  · rw [get?, get?, if_pos ((holds_iff_of_eq hw hh).2 hc), if_pos hc, hd, index_eq_of_eq hw,
      Array.getElem?_setIfInBounds, if_pos hs]
    by_cases he : x = p.x ∧ y = p.y
    · rw [if_pos he, if_pos ((index_inj hp hc).2 ⟨he.1.symm, he.2.symm⟩)]
    · rw [if_neg he, if_neg]
      intro hi
      have := (index_inj hp hc).1 hi
      exact he ⟨this.1.symm, this.2.symm⟩
  · have hne : ¬ (x = p.x ∧ y = p.y) := by
      rintro ⟨rfl, rfl⟩
      exact hc hp
    rw [get?, get?, if_neg (mt (holds_iff_of_eq hw hh).1 hc), if_neg hc, if_neg hne]

theorem pendingAt_set (hw : d.width = c.width) (hh : d.height = c.height) (hp : c.Holds p.x p.y)
    (hd : d.pending = c.pending.setIfInBounds (c.index p.x p.y) (some p.color)) :
    d.pendingAt x y = if x = p.x ∧ y = p.y then some p.color else c.pendingAt x y := by
  have hs : c.index p.x p.y < c.pending.size := c.size_pending ▸ index_lt hp
  by_cases hc : c.Holds x y
  · rw [pendingAt, pendingAt, if_pos ((holds_iff_of_eq hw hh).2 hc), if_pos hc, hd,
      index_eq_of_eq hw, Array.getElem?_setIfInBounds, if_pos hs]
    by_cases he : x = p.x ∧ y = p.y
    · rw [if_pos he, if_pos ((index_inj hp hc).2 ⟨he.1.symm, he.2.symm⟩)]
      rfl
    · rw [if_neg he, if_neg]
      intro hi
      have := (index_inj hp hc).1 hi
      exact he ⟨this.1.symm, this.2.symm⟩
  · have hne : ¬ (x = p.x ∧ y = p.y) := by
      rintro ⟨rfl, rfl⟩
      exact hc hp
    rw [pendingAt, pendingAt, if_neg (mt (holds_iff_of_eq hw hh).1 hc), if_neg hc, if_neg hne]

/-- What painting a pixel does. -/
structure Painted (c d : Canvas) (p : Pixel) : Prop where
  holds : c.Holds p.x p.y
  known : Palette.Has p.color
  width : d.width = c.width
  height : d.height = c.height
  cells : d.cells = c.cells.setIfInBounds (c.index p.x p.y) p.color
  pending : d.pending = c.pending.setIfInBounds (c.index p.x p.y) (some p.color)
  version : d.version = c.version + 1

theorem painted_of_paint (h : c.paint p = .ok d) : Painted c d p := by
  unfold paint at h
  split at h
  · simp at h
  · rename_i hh
    split at h
    · rename_i hc
      rw [Except.ok.injEq] at h
      subst h
      exact ⟨Decidable.not_not.1 hh, hc, rfl, rfl, rfl, rfl, rfl⟩
    · simp at h

theorem fst_paintAll (c : Canvas) (ps : List Pixel) : (c.paintAll ps).1 =
    ps.foldl (fun c p => match c.paint p with | .ok d => d | .error _ => c) c := by
  rw [paintAll]
  refine (List.foldl_hom Prod.fst ?_).symm
  rintro ⟨c, painted, refused⟩ p
  dsimp only
  cases c.paint p <;> rfl

/-- What every accepted pixel keeps, a whole batch keeps. -/
theorem paintAll_induction {motive : Canvas → Prop} (ps : List Pixel) (hc : motive c)
    (step : ∀ c d p, motive c → Painted c d p → motive d) : motive (c.paintAll ps).1 := by
  rw [fst_paintAll]
  induction ps generalizing c with
  | nil => exact hc
  | cons p ps ih =>
    apply ih
    dsimp only
    split
    · rename_i d hd
      exact step c d p hc (painted_of_paint hd)
    · exact hc

theorem pairwise_announcements (c : Canvas) :
    c.announcements.Pairwise fun p q => c.index p.x p.y < c.index q.x q.y := by
  rw [announcements, List.pairwise_filterMap]
  refine List.Pairwise.imp_of_mem ?_ List.pairwise_lt_range
  intro i j hi hj hij p hp q hq
  obtain ⟨a, _, rfl⟩ := Option.map_eq_some_iff.1 hp
  obtain ⟨b, _, rfl⟩ := Option.map_eq_some_iff.1 hq
  rw [(holds_pixelAt (List.mem_range.1 hi) a).2, (holds_pixelAt (List.mem_range.1 hj) b).2]
  exact hij

theorem holds_of_mem_announcements (h : p ∈ c.announcements) : c.Holds p.x p.y := by
  obtain ⟨i, hi, hp⟩ := List.mem_filterMap.1 h
  obtain ⟨a, _, rfl⟩ := Option.map_eq_some_iff.1 hp
  exact (holds_pixelAt (List.mem_range.1 hi) a).1

theorem lastAt_announcements_lt (hh : c.Holds x y) {n : Nat} (hn : n ≤ c.area) :
    lastAt x y ((List.range n).filterMap fun i => (c.pending[i]?).join.map (c.pixelAt i)) =
      if c.index x y < n then (c.pending[c.index x y]?).join else none := by
  -- One place after another: the pixel of place `n` is for no cell but that of the place.
  induction n with
  | zero => rfl
  | succ n ih =>
    rw [List.range_succ, List.filterMap_append, Pixel.lastAt_append, ih (Nat.le_of_succ_le hn)]
    have hlt : ¬ c.index x y = n → (c.index x y < n ↔ c.index x y < n + 1) := by omega
    cases hp : (c.pending[n]?).join with
    | none =>
      rw [List.filterMap_cons_none (by rw [hp]; rfl), List.filterMap_nil, lastAt, Option.none_or]
      by_cases he : c.index x y = n
      · rw [if_neg (by omega), he, hp, ite_self]
      · simp only [hlt he]
    | some a =>
      obtain ⟨ha, hi⟩ := holds_pixelAt hn a
      rw [List.filterMap_cons_some (by rw [hp]; rfl), List.filterMap_nil, Pixel.lastAt_singleton]
      by_cases he : c.index x y = n
      · rw [if_pos ((index_inj hh ha).1 (he.trans hi.symm)),
          if_pos (show c.index x y < n + 1 by omega), he, hp]
        rfl
      · rw [if_neg fun h => he (((index_inj hh ha).2 h).trans hi), Option.none_or]
        simp only [hlt he]

theorem lastAt_announcements (c : Canvas) (x y : UInt16) :
    lastAt x y c.announcements = c.pendingAt x y := by
  by_cases hh : c.Holds x y
  · rw [announcements, lastAt_announcements_lt hh (Nat.le_refl _), if_pos (index_lt hh), pendingAt,
      if_pos hh]
  · rw [pendingAt, if_neg hh]
    apply Pixel.lastAt_eq_none
    rintro p hp ⟨rfl, rfl⟩
    exact hh (holds_of_mem_announcements hp)

theorem length_announcements (h : ∀ x y, c.Holds x y → (c.pendingAt x y).isSome = true) :
    c.announcements.length = c.area := by
  rw [announcements, List.length_filterMap_eq_countP]
  refine (List.countP_eq_length.2 ?_).trans List.length_range
  intro i hi
  obtain ⟨hh, hidx⟩ := holds_pixelAt (List.mem_range.1 hi) 0
  have hs := h _ _ hh
  rw [pendingAt, if_pos hh, hidx] at hs
  rwa [Option.isSome_map]

theorem pendingAt_drain (c : Canvas) (x y : UInt16) : c.drain.1.pendingAt x y = none := by
  rw [pendingAt, ite_eq_right_iff]
  intro _
  change ((Array.replicate c.area none)[_]?).join = none
  rw [Array.getElem?_replicate]
  split <;> rfl

theorem restore_eq (c : Canvas) (ps : List Pixel) : (c.restore ps).width = c.width ∧
    (c.restore ps).height = c.height ∧ (c.restore ps).cells = c.cells ∧
      (c.restore ps).version = c.version := by
  rw [restore]
  induction ps generalizing c with
  | nil => exact ⟨rfl, rfl, rfl, rfl⟩
  | cons p ps ih =>
    have h : (c.restoreOne p).width = c.width ∧ (c.restoreOne p).height = c.height ∧
        (c.restoreOne p).cells = c.cells ∧ (c.restoreOne p).version = c.version := by
      unfold restoreOne
      split <;> exact ⟨rfl, rfl, rfl, rfl⟩
    obtain ⟨hw, hh, hc, hv⟩ := ih (c.restoreOne p)
    rw [List.foldl_cons]
    exact ⟨hw.trans h.1, hh.trans h.2.1, hc.trans h.2.2.1, hv.trans h.2.2.2⟩

theorem pendingAt_restoreOne (hp : c.Holds p.x p.y) (x y : UInt16) :
    (c.restoreOne p).pendingAt x y =
      (c.pendingAt x y).or (if x = p.x ∧ y = p.y then some p.color else none) := by
  have hs : c.index p.x p.y < c.pending.size := c.size_pending ▸ index_lt hp
  have hsome := Array.getElem?_eq_getElem hs
  by_cases hn : c.pending[c.index p.x p.y]? = some none
  · have hd : (c.restoreOne p).pendingAt x y =
        if x = p.x ∧ y = p.y then some p.color else c.pendingAt x y := by
      rw [restoreOne, if_pos ⟨hp, hn⟩]
      exact pendingAt_set rfl rfl hp rfl
    rw [hd]
    by_cases he : x = p.x ∧ y = p.y
    · obtain ⟨rfl, rfl⟩ := he
      rw [if_pos ⟨rfl, rfl⟩, if_pos ⟨rfl, rfl⟩, pendingAt, if_pos hp, hn]
      rfl
    · rw [if_neg he, if_neg he, Option.or_none]
  · rw [restoreOne, if_neg fun h => hn h.2]
    by_cases he : x = p.x ∧ y = p.y
    · obtain ⟨rfl, rfl⟩ := he
      cases hc : c.pending[c.index p.x p.y] with
      | none => exact absurd (hsome.trans (congrArg some hc)) hn
      | some a =>
        rw [pendingAt, if_pos hp, hsome, hc]
        rfl
    · rw [if_neg he, Option.or_none]

/-- What is announced again does not replace what has been painted since. -/
theorem pendingAt_restore {ps : List Pixel} (hp : ∀ p ∈ ps, c.Holds p.x p.y)
    (hd : ps.Pairwise fun p q => ¬ (p.x = q.x ∧ p.y = q.y)) (x y : UInt16) :
    (c.restore ps).pendingAt x y = (c.pendingAt x y).or (lastAt x y ps) := by
  induction ps generalizing c with
  | nil => rw [lastAt, Option.or_none]; rfl
  | cons p ps ih =>
    obtain ⟨hpp, hps⟩ := List.pairwise_cons.1 hd
    have hw := restore_eq c [p]
    have hr : ∀ q ∈ ps, (c.restoreOne p).Holds q.x q.y := fun q hq =>
      (holds_iff_of_eq hw.1 hw.2.1).2 (hp q (List.mem_cons_of_mem p hq))
    change ((c.restoreOne p).restore ps).pendingAt x y = _
    rw [ih hr hps, pendingAt_restoreOne (hp p List.mem_cons_self), lastAt, Option.or_assoc]
    -- No later pixel is for the cell of the first.
    by_cases he : x = p.x ∧ y = p.y
    · obtain ⟨rfl, rfl⟩ := he
      rw [Pixel.lastAt_eq_none hpp, Option.or_none, Option.none_or]
    · rw [if_neg he, Option.none_or, Option.or_none]

end Canvas
end SharedCanvas
