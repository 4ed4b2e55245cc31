import SharedCanvas.Proofs.Canvas.Cells

namespace SharedCanvas

def Pixel.Touch (ps : List Pixel) (x y : UInt16) : Prop := ∃ p ∈ ps, x = p.x ∧ y = p.y

theorem Pixel.lastAt_of_not_touch {ps : List Pixel} {x y : UInt16} (h : ¬ Touch ps x y) :
    lastAt x y ps = none := lastAt_eq_none fun p hp he => h ⟨p, hp, he⟩

namespace Canvas
open Pixel (lastAt Touch)

def Accepts (c : Canvas) (p : Pixel) : Prop := c.Holds p.x p.y ∧ Palette.Has p.color

instance (c : Canvas) (p : Pixel) : Decidable (c.Accepts p) := inferInstanceAs (Decidable (_ ∧ _))

def accepted (c : Canvas) (ps : List Pixel) : List Pixel := ps.filter fun p => c.Accepts p

variable {c d e : Canvas} {p : Pixel} {ps qs : List Pixel} {x y : UInt16}

theorem accepted_eq_of_eq (hw : d.width = c.width) (hh : d.height = c.height) (ps : List Pixel) :
    d.accepted ps = c.accepted ps := by
  apply List.filter_congr
  intro p _
  rw [decide_eq_decide, Accepts, Accepts, holds_iff_of_eq hw hh]

theorem accepted_append (c : Canvas) (ps qs : List Pixel) :
    c.accepted (ps ++ qs) = c.accepted ps ++ c.accepted qs := List.filter_append ..

theorem exists_paint_of_accepts (h : c.Accepts p) : ∃ d, c.paint p = .ok d := by
  rw [paint, if_neg (not_not_intro h.1), dif_pos h.2]
  exact ⟨_, rfl⟩

theorem exists_paint_of_not_accepts (h : ¬ c.Accepts p) : ∃ e, c.paint p = .error e := by
  cases hp : c.paint p with
  | ok d => exact absurd ⟨(painted_of_paint hp).holds, (painted_of_paint hp).known⟩ h
  | error e => exact ⟨e, rfl⟩

theorem paintAll_append (c : Canvas) (ps qs : List Pixel) :
    (c.paintAll (ps ++ qs)).1 = ((c.paintAll ps).1.paintAll qs).1 := by
  rw [fst_paintAll, fst_paintAll, fst_paintAll, List.foldl_append]

/-- The canvas shows what it showed and, over it, pixels that were painted since. -/
structure Follows (c d : Canvas) (ps : List Pixel) : Prop where
  width : d.width = c.width
  height : d.height = c.height
  version : d.version = c.version + ps.length
  shown : ∀ x y, d.get? x y = (lastAt x y ps).or (c.get? x y)

/-- What painting pixels that are accepted does, one after the other. -/
structure Covered (c d : Canvas) (ps : List Pixel) : Prop extends Follows c d ps where
  pending : ∀ x y, d.pendingAt x y = (lastAt x y ps).or (c.pendingAt x y)

theorem Follows.refl (c : Canvas) : c.Follows c [] := ⟨rfl, rfl, rfl, fun _ _ => rfl⟩

theorem Covered.refl (c : Canvas) : c.Covered c [] := ⟨.refl c, fun _ _ => rfl⟩

theorem Painted.covered (h : Painted c d p) : c.Covered d [p] := by
  refine ⟨⟨h.width, h.height, h.version, fun x y => ?_⟩, fun x y => ?_⟩
  · rw [get?_set h.width h.height h.holds h.cells, Pixel.lastAt_singleton]
    split <;> rfl
  · rw [pendingAt_set h.width h.height h.holds h.pending, Pixel.lastAt_singleton]
    split <;> rfl

theorem Follows.trans (h : c.Follows d ps) (h' : d.Follows e qs) : c.Follows e (ps ++ qs) := by
  refine ⟨h'.width.trans h.width, h'.height.trans h.height, ?_, fun x y => ?_⟩
  · rw [h'.version, h.version, List.length_append, Nat.add_assoc]
  · rw [h'.shown, h.shown, Pixel.lastAt_append, Option.or_assoc]

theorem Follows.of_cells (h : c.Follows d ps)
    (hw : e.width = d.width) (hh : e.height = d.height) (hc : e.cells = d.cells)
    (hv : e.version = d.version) : c.Follows e ps := by
  exact ⟨hw.trans h.width, hh.trans h.height, hv.trans h.version,
    fun x y => (get?_eq_of_eq hw hh hc).trans (h.shown x y)⟩

theorem Covered.trans (h : c.Covered d ps) (h' : d.Covered e qs) : c.Covered e (ps ++ qs) := by
  refine ⟨h.toFollows.trans h'.toFollows, fun x y => ?_⟩
  rw [h'.pending, h.pending, Pixel.lastAt_append, Option.or_assoc]

theorem covered_paintAll (c : Canvas) (ps : List Pixel) :
    c.Covered (c.paintAll ps).1 (c.accepted ps) := by
  rw [fst_paintAll]
  induction ps generalizing c with
  | nil => exact .refl c
  | cons p ps ih =>
    rw [List.foldl_cons]
    by_cases hp : c.Accepts p
    · obtain ⟨d, hd⟩ := exists_paint_of_accepts hp
      have hpd := (painted_of_paint hd).covered
      have hc := hpd.trans (ih d)
      rw [accepted_eq_of_eq hpd.width hpd.height] at hc
      have hf : c.accepted (p :: ps) = [p] ++ c.accepted ps := by simp [accepted, hp]
      rw [hd, hf]
      exact hc
    · obtain ⟨e, he⟩ := exists_paint_of_not_accepts hp
      have hf : c.accepted (p :: ps) = c.accepted ps := by simp [accepted, hp]
      rw [he, hf]
      exact ih c

theorem length_announcements_paintAll (c : Canvas) {color : UInt8} (hc : Palette.Has color) :
    (c.paintAll ((List.range c.area).map fun i => c.pixelAt i color)).1.announcements.length =
      c.area := by
  have h := c.covered_paintAll ((List.range c.area).map fun i => c.pixelAt i color)
  have hall : c.accepted ((List.range c.area).map fun i => c.pixelAt i color) =
      (List.range c.area).map fun i => c.pixelAt i color := by
    apply List.filter_eq_self.2
    intro p hp
    obtain ⟨i, hi, rfl⟩ := List.mem_map.1 hp
    exact decide_eq_true ⟨(holds_pixelAt (List.mem_range.1 hi) color).1, hc⟩
  have ha := length_announcements (c := (c.paintAll _).1) fun x y hxy => by
    rw [holds_iff_of_eq h.width h.height] at hxy
    obtain ⟨hq, hi⟩ := holds_pixelAt (index_lt hxy) color
    obtain ⟨hx, hy⟩ := (index_inj hq hxy).1 hi
    have hm : c.pixelAt (c.index x y) color ∈ (List.range c.area).map fun i => c.pixelAt i color :=
      List.mem_map_of_mem (List.mem_range.2 (index_lt hxy))
    have hl := Pixel.isSome_lastAt hm
    rw [hx, hy] at hl
    rw [h.pending, hall, Option.isSome_or, hl, Bool.true_or]
  exact ha.trans (area_eq_of_eq h.width h.height)

theorem ext_cells (hw : d.width = c.width) (hh : d.height = c.height) (hv : d.version = c.version)
    (hs : ∀ x y, d.get? x y = c.get? x y) (hp : ∀ x y, d.pendingAt x y = c.pendingAt x y) :
    d = c := by
  have hcells : d.cells = c.cells := by
    apply Array.ext_getElem?
    intro i
    by_cases hi : i < c.area
    · obtain ⟨hc, hx⟩ := holds_pixelAt hi 0
      have := hs (c.pixelAt i 0).x (c.pixelAt i 0).y
      rwa [get?, get?, if_pos ((holds_iff_of_eq hw hh).2 hc), if_pos hc, index_eq_of_eq hw,
        hx] at this
    · have hsize : d.cells.size = c.cells.size := by rw [d.size_cells, c.size_cells, hw, hh]
      have hle : c.cells.size ≤ i := c.size_cells ▸ Nat.le_of_not_lt hi
      rw [Array.getElem?_eq_none hle, Array.getElem?_eq_none (hsize ▸ hle)]
  have hpending : d.pending = c.pending := by
    have hsize : d.pending.size = c.pending.size := by rw [d.size_pending, c.size_pending, hw, hh]
    apply Array.ext hsize
    intro i hdi hci
    obtain ⟨hc, hx⟩ := holds_pixelAt (c := c) (c.size_pending ▸ hci) 0
    have := hp (c.pixelAt i 0).x (c.pixelAt i 0).y
    rwa [pendingAt, pendingAt, if_pos ((holds_iff_of_eq hw hh).2 hc), if_pos hc,
      index_eq_of_eq hw, hx, Array.getElem?_eq_getElem hdi, Array.getElem?_eq_getElem hci,
      Option.join_some, Option.join_some] at this
  cases d
  cases c
  simp only [mk.injEq]
  exact ⟨hw, hh, hcells, hpending, hv⟩

/-- What is left out of a batch makes no difference. -/
theorem paintAll_accepted (c : Canvas) (ps : List Pixel) :
    (c.paintAll (c.accepted ps)).1 = (c.paintAll ps).1 := by
  have h := c.covered_paintAll ps
  have h' := c.covered_paintAll (c.accepted ps)
  rw [accepted, accepted, List.filter_filter] at h'
  simp only [Bool.and_self] at h'
  exact ext_cells (h'.width.trans h.width.symm) (h'.height.trans h.height.symm)
    (h'.version.trans h.version.symm) (fun x y => (h'.shown x y).trans (h.shown x y).symm)
    fun x y => (h'.pending x y).trans (h.pending x y).symm

theorem covered_paintAll_append (c : Canvas) (ps qs : List Pixel) :
    c.Covered ((c.paintAll ps).1.paintAll qs).1 (c.accepted ps ++ c.accepted qs) := by
  rw [← paintAll_append, ← accepted_append]
  exact c.covered_paintAll (ps ++ qs)

theorem lastAt_comm (h : ¬ (Touch ps x y ∧ Touch qs x y)) :
    lastAt x y (ps ++ qs) = lastAt x y (qs ++ ps) := by
  rw [Pixel.lastAt_append, Pixel.lastAt_append]
  by_cases hp : Touch ps x y
  · rw [Pixel.lastAt_of_not_touch fun hq => h ⟨hp, hq⟩, Option.none_or, Option.or_none]
  · rw [Pixel.lastAt_of_not_touch hp, Option.none_or, Option.or_none]

/-- Two batches count alike in either order, and only a cell of both can tell in which they came. -/
theorem paintAll_comm (c : Canvas) (ps qs : List Pixel) :
    let d := ((c.paintAll ps).1.paintAll qs).1
    let e := ((c.paintAll qs).1.paintAll ps).1
    d.width = e.width ∧ d.height = e.height ∧ d.version = e.version ∧
      ∀ x y, ¬ (Touch (c.accepted ps) x y ∧ Touch (c.accepted qs) x y) →
        d.get? x y = e.get? x y ∧ d.pendingAt x y = e.pendingAt x y := by
  intro d e
  have hd := c.covered_paintAll_append ps qs
  have he := c.covered_paintAll_append qs ps
  refine ⟨hd.width.trans he.width.symm, hd.height.trans he.height.symm, ?_, fun x y h => ?_⟩
  · rw [hd.version, he.version, List.length_append, List.length_append,
      Nat.add_comm (List.length _)]
  · rw [hd.shown, he.shown, hd.pending, he.pending, lastAt_comm h]
    exact ⟨rfl, rfl⟩

end Canvas
end SharedCanvas
