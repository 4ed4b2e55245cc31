import SharedCanvas.Bytes
import SharedCanvas.Palette

namespace SharedCanvas

/-- A cell and a colour for it. Nothing is promised about either. -/
structure Pixel where
  x : UInt16
  y : UInt16
  color : UInt8
deriving DecidableEq, Repr

inductive CanvasError
  | outside (x y width height : UInt16)
  | unknownColor (color : UInt8)
  | sizeMismatch (actual expected : Nat)
  | empty (width height : UInt16)
deriving DecidableEq, Repr

def CanvasError.message : CanvasError → String
  | .outside x y w h => s!"pixel ({x.toNat}, {y.toNat}) is outside the {w.toNat}x{h.toNat} canvas"
  | .unknownColor c => s!"color index {c.toNat} is not in the palette"
  | .sizeMismatch actual expected => s!"snapshot has {actual} pixels, expected {expected}"
  | .empty w h => s!"canvas dimensions must be non-zero (got {w.toNat}x{h.toNat})"

/-- A stored picture, row by row. Nothing is promised about its size or its colours. -/
structure Snapshot where
  width : UInt16
  height : UInt16
  pixels : Bytes
deriving DecidableEq, Repr

namespace Snapshot

def area (s : Snapshot) : Nat := s.width.toNat * s.height.toNat

/-- The dimensions come before the number of pixels. -/
def check (s : Snapshot) : Except CanvasError Unit :=
  if s.width = 0 ∨ s.height = 0 then .error (.empty s.width s.height)
  else if s.pixels.length ≠ s.area then .error (.sizeMismatch s.pixels.length s.area)
  else .ok ()

theorem check_eq_ok_iff {s : Snapshot} :
    s.check = .ok () ↔ s.width ≠ 0 ∧ s.height ≠ 0 ∧ s.pixels.length = s.area := by
  unfold check
  split
  · rename_i h; rcases h with h | h <;> simp [h]
  · split <;> simp_all

end Snapshot
end SharedCanvas
