import SharedCanvas.Canvas.Snapshot

namespace SharedCanvas

structure Canvas where
  width : UInt16
  height : UInt16
  /-- Row by row. -/
  cells : Array UInt8
  /-- For each cell the colour that is still to be announced, row by row. -/
  pending : Array (Option UInt8)
  /-- The number of pixels painted so far. It is never so large that it would not fit a word of 64
  bits. -/
  version : Nat
  size_cells : cells.size = width.toNat * height.toNat
  size_pending : pending.size = width.toNat * height.toNat
  palette : ∀ c ∈ cells, Palette.Has c
  nonempty : width ≠ 0 ∧ height ≠ 0

namespace Canvas

def area (c : Canvas) : Nat := c.width.toNat * c.height.toNat

def blank (width height : UInt16) (color : UInt8) : Except CanvasError Canvas :=
  if h : width = 0 ∨ height = 0 then .error (.empty width height)
  else if hc : Palette.Has color then
    .ok {
      width, height
      cells := .replicate (width.toNat * height.toNat) color
      pending := .replicate (width.toNat * height.toNat) none
      version := 0
      size_cells := by simp
      size_pending := by simp
      palette := by simp only [Array.mem_replicate]; rintro _ ⟨_, rfl⟩; exact hc
      nonempty := not_or.1 h }
  else .error (.unknownColor color)

def ofSnapshot (s : Snapshot) : Except CanvasError Canvas :=
  match hs : s.check with
  | .error e => .error e
  | .ok () =>
    match hf : s.pixels.find? fun c => !decide (Palette.Has c) with
    | some c => .error (.unknownColor c)
    | none =>
      .ok {
        width := s.width
        height := s.height
        cells := s.pixels.toArray
        pending := .replicate s.area none
        version := 0
        size_cells := by simpa [Snapshot.area] using (Snapshot.check_eq_ok_iff.1 hs).2.2
        size_pending := by simp [Snapshot.area]
        palette := by simpa using hf
        nonempty := ⟨(Snapshot.check_eq_ok_iff.1 hs).1, (Snapshot.check_eq_ok_iff.1 hs).2.1⟩ }

def snapshot (c : Canvas) : Snapshot := ⟨c.width, c.height, c.cells.toList⟩

def Holds (c : Canvas) (x y : UInt16) : Prop := x < c.width ∧ y < c.height

instance (c : Canvas) (x y : UInt16) : Decidable (c.Holds x y) :=
  inferInstanceAs (Decidable (_ ∧ _))

def index (c : Canvas) (x y : UInt16) : Nat := y.toNat * c.width.toNat + x.toNat

def get? (c : Canvas) (x y : UInt16) : Option UInt8 :=
  if c.Holds x y then c.cells[c.index x y]? else none

/-- A pixel outside the canvas is refused as such, whatever its colour. -/
def paint (c : Canvas) (p : Pixel) : Except CanvasError Canvas :=
  if ¬ c.Holds p.x p.y then .error (.outside p.x p.y c.width c.height)
  else if hc : Palette.Has p.color then
    .ok { c with
      cells := c.cells.setIfInBounds (c.index p.x p.y) p.color
      pending := c.pending.setIfInBounds (c.index p.x p.y) (some p.color)
      version := c.version + 1
      size_cells := by simpa using c.size_cells
      size_pending := by simpa using c.size_pending
      palette := fun d hd => (Array.mem_or_eq_of_mem_setIfInBounds hd).elim (c.palette d)
        fun h => h ▸ hc }
  else .error (.unknownColor p.color)

/-- Paints what it can, in order, and lists why the rest was refused. -/
def paintAll (c : Canvas) (ps : List Pixel) : Canvas × Nat × List CanvasError :=
  let step := fun (c, painted, refused) p =>
    match paint c p with
    | .ok c' => (c', painted + 1, refused)
    | .error e => (c, painted, Array.push refused e)
  let (c', painted, refused) := ps.foldl step (c, 0, #[])
  (c', painted, refused.toList)

def pixelAt (c : Canvas) (i : Nat) (color : UInt8) : Pixel :=
  ⟨UInt16.ofNat (i % c.width.toNat), UInt16.ofNat (i / c.width.toNat), color⟩

/-- What is still to be announced, row by row. -/
def announcements (c : Canvas) : List Pixel :=
  (List.range c.area).filterMap fun i => (c.pending[i]?).join.map (c.pixelAt i)

def pendingCount (c : Canvas) : Nat := c.pending.countP Option.isSome

def drain (c : Canvas) : Canvas × List Pixel :=
  ({ c with
      pending := .replicate c.area none
      size_pending := by simp [area] }, c.announcements)

/-- Notes an announcement again. A cell that has been painted since keeps its newer colour. -/
def restoreOne (c : Canvas) (p : Pixel) : Canvas :=
  if c.Holds p.x p.y ∧ c.pending[c.index p.x p.y]? = some none then
    { c with
      pending := c.pending.setIfInBounds (c.index p.x p.y) (some p.color)
      size_pending := by simpa using c.size_pending }
  else c

def restore (c : Canvas) (ps : List Pixel) : Canvas := ps.foldl restoreOne c

theorem index_lt {c : Canvas} {x y : UInt16} (h : c.Holds x y) : c.index x y < c.area := by
  have hx : x.toNat < c.width.toNat := UInt16.lt_iff_toNat_lt.1 h.1
  have hy : y.toNat < c.height.toNat := UInt16.lt_iff_toNat_lt.1 h.2
  calc c.index x y < y.toNat * c.width.toNat + c.width.toNat := by unfold index; omega
    _ = (y.toNat + 1) * c.width.toNat := by rw [Nat.add_mul, Nat.one_mul]
    _ ≤ c.height.toNat * c.width.toNat := Nat.mul_le_mul_right _ hy
    _ = c.area := Nat.mul_comm _ _

theorem length_pixels_snapshot (c : Canvas) : c.snapshot.pixels.length = c.area := by
  simpa [snapshot, area] using c.size_cells

end Canvas
end SharedCanvas
