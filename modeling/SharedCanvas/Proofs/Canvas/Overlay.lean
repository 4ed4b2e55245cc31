import SharedCanvas.Proofs.Canvas.Cells

namespace SharedCanvas
namespace Snapshot
open Pixel (lastAt)

def get? (s : Snapshot) (x y : UInt16) : Option UInt8 :=
  if x < s.width ∧ y < s.height then s.pixels[y.toNat * s.width.toNat + x.toNat]? else none

/-- A pixel outside the picture changes nothing. -/
def paint (s : Snapshot) (p : Pixel) : Snapshot :=
  if p.x < s.width ∧ p.y < s.height then
    { s with pixels := s.pixels.set (p.y.toNat * s.width.toNat + p.x.toNat) p.color }
  else s

def overlay (s : Snapshot) (ps : List Pixel) : Snapshot := ps.foldl paint s

/-- The picture is of the size of the canvas. -/
structure Fits (s : Snapshot) (c : Canvas) : Prop where
  width : s.width = c.width
  height : s.height = c.height
  length : s.pixels.length = c.area

variable {s t : Snapshot} {c d : Canvas} {x y : UInt16} {p : Pixel}

theorem fits_snapshot (c : Canvas) : c.snapshot.Fits c := ⟨rfl, rfl, c.length_pixels_snapshot⟩

theorem Fits.of_eq (hf : s.Fits c) (hw : d.width = c.width) (hh : d.height = c.height) :
    s.Fits d := by
  refine ⟨hf.width.trans hw.symm, hf.height.trans hh.symm, ?_⟩
  rw [hf.length, Canvas.area, Canvas.area, hw, hh]

theorem Fits.length_eq_area (hf : s.Fits c) : s.pixels.length = s.area := by
  rw [hf.length, Canvas.area, area, hf.width, hf.height]

theorem get?_snapshot (c : Canvas) (x y : UInt16) : c.snapshot.get? x y = c.get? x y := by
  have hi : c.cells.toList[c.index x y]? = c.cells[c.index x y]? := Array.getElem?_toList
  rw [Canvas.get?, ← hi]
  rfl

theorem Fits.get?_eq (hf : s.Fits c) (hh : c.Holds x y) :
    s.get? x y = s.pixels[c.index x y]? := by
  have hxy : x < s.width ∧ y < s.height := by
    rw [hf.width, hf.height]
    exact hh
  rw [get?, if_pos hxy, hf.width]
  rfl

theorem Fits.paint_eq (hf : s.Fits c) (hp : c.Holds p.x p.y) :
    s.paint p = { s with pixels := s.pixels.set (c.index p.x p.y) p.color } := by
  have hxy : p.x < s.width ∧ p.y < s.height := by
    rw [hf.width, hf.height]
    exact hp
  rw [paint, if_pos hxy, hf.width]
  rfl

theorem Fits.paint (hf : s.Fits c) (p : Pixel) : (s.paint p).Fits c := by
  rw [Snapshot.paint]
  split
  · exact ⟨hf.width, hf.height, (List.length_set ..).trans hf.length⟩
  · exact hf

theorem Fits.overlay (hf : s.Fits c) (ps : List Pixel) : (s.overlay ps).Fits c := by
  induction ps generalizing s with
  | nil => exact hf
  | cons p ps ih => exact ih (hf.paint p)

theorem overlay_append (s : Snapshot) (ps qs : List Pixel) :
    s.overlay (ps ++ qs) = (s.overlay ps).overlay qs := List.foldl_append

theorem get?_paint (hf : s.Fits c) (hh : c.Holds x y) :
    (s.paint p).get? x y = if x = p.x ∧ y = p.y then some p.color else s.get? x y := by
  by_cases hp : c.Holds p.x p.y
  · have hi : c.index p.x p.y < s.pixels.length := hf.length ▸ Canvas.index_lt hp
    rw [(hf.paint p).get?_eq hh, hf.paint_eq hp, hf.get?_eq hh, List.getElem?_set, if_pos hi]
    by_cases he : x = p.x ∧ y = p.y
    · rw [if_pos he, if_pos ((Canvas.index_inj hp hh).2 ⟨he.1.symm, he.2.symm⟩)]
    · rw [if_neg he, if_neg]
      intro h
      have := (Canvas.index_inj hp hh).1 h
      exact he ⟨this.1.symm, this.2.symm⟩
  · have hne : ¬ (x = p.x ∧ y = p.y) := by
      rintro ⟨rfl, rfl⟩
      exact hp hh
    have hxy : ¬ (p.x < s.width ∧ p.y < s.height) := by
      rw [hf.width, hf.height]
      exact hp
    rw [paint, if_neg hxy, if_neg hne]

/-- A cell shows the last pixel that was laid over it. -/
theorem get?_overlay (hf : s.Fits c) (hh : c.Holds x y) (ps : List Pixel) :
    (s.overlay ps).get? x y = (lastAt x y ps).or (s.get? x y) := by
  induction ps generalizing s with
  | nil => rw [lastAt, Option.none_or]; rfl
  | cons p ps ih =>
    change ((s.paint p).overlay ps).get? x y = _
    rw [ih (hf.paint p), get?_paint hf hh, lastAt, Option.or_assoc]
    by_cases he : x = p.x ∧ y = p.y
    · rw [if_pos he, if_pos he, Option.some_or]
    · rw [if_neg he, if_neg he, Option.none_or]

theorem Fits.ext (hs : s.Fits c) (ht : t.Fits c)
    (h : ∀ x y, c.Holds x y → s.get? x y = t.get? x y) : s = t := by
  have hp : s.pixels = t.pixels := by
    apply List.ext_getElem?
    intro i
    by_cases hi : i < c.area
    · obtain ⟨hh, hx⟩ := Canvas.holds_pixelAt hi 0
      have := h _ _ hh
      rwa [hs.get?_eq hh, ht.get?_eq hh, hx] at this
    · rw [List.getElem?_eq_none (hs.length ▸ Nat.le_of_not_lt hi),
        List.getElem?_eq_none (ht.length ▸ Nat.le_of_not_lt hi)]
  cases s
  cases t
  simp only [mk.injEq]
  exact ⟨hs.width.trans ht.width.symm, hs.height.trans ht.height.symm, hp⟩

end Snapshot
end SharedCanvas
