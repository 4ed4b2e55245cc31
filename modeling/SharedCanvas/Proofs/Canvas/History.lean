import SharedCanvas.Proofs.Canvas.Grid
import Mathlib.Data.List.DropRight

namespace SharedCanvas
open Pixel (lastAt)

namespace Canvas

/-- What a canvas is built from. -/
inductive Start
  | blank (width height : UInt16) (color : UInt8)
  | stored (picture : Snapshot)
deriving DecidableEq, Repr

namespace Start

def build : Start → Except CanvasError Canvas
  | .blank width height color => Canvas.blank width height color
  | .stored picture => Canvas.ofSnapshot picture

def grid : Start → Except CanvasError Grid
  | .blank width height color => Grid.blank width height color
  | .stored picture => Grid.ofSnapshot picture

def width : Start → UInt16
  | .blank width _ _ => width
  | .stored picture => picture.width

def height : Start → UInt16
  | .blank _ height _ => height
  | .stored picture => picture.height

def IsValid : Start → Prop
  | .blank width height color => width ≠ 0 ∧ height ≠ 0 ∧ Palette.Has color
  | .stored picture => picture.width ≠ 0 ∧ picture.height ≠ 0 ∧
    picture.pixels.length = picture.width.toNat * picture.height.toNat ∧
      ∀ color ∈ picture.pixels, Palette.Has color

def color? (s : Start) (x y : UInt16) : Option UInt8 :=
  match s with
  | .blank _ _ color => some color
  | .stored picture => picture.pixels[y.toNat * picture.width.toNat + x.toNat]?

end Start

/-- What can be done to a canvas. Any pixels can be put back, and a reload stores the canvas and
loads what was stored. -/
inductive Edit
  | paint (p : Pixel)
  | paintAll (ps : List Pixel)
  | drain
  | restore (ps : List Pixel)
  | snapshot
  | reload
deriving DecidableEq, Repr

namespace Edit

/-- The pixels that are asked for. What is put back is not asked for again. -/
def pixels : Edit → List Pixel
  | .paint p => [p]
  | .paintAll ps => ps
  | _ => []

/-- The last of the operations, from the last reload on if there is one. -/
def sinceReload (ops : List Edit) : List Edit := ops.rtakeWhile (· ≠ .reload)

end Edit

namespace Start

def Accepts (s : Start) (p : Pixel) : Prop :=
  (p.x < s.width ∧ p.y < s.height) ∧ p.color.toNat < 30

instance (s : Start) (p : Pixel) : Decidable (s.Accepts p) := inferInstanceAs (Decidable (_ ∧ _))

/-- All pixels that the operations ask for and that can be painted, in order. -/
def accepted (s : Start) (ops : List Edit) : List Pixel :=
  (ops.flatMap Edit.pixels).filter fun p => s.Accepts p

end Start

def edit (c : Canvas) : Edit → Canvas
  | .paint p => (c.paint p).toOption.getD c
  | .paintAll ps => (c.paintAll ps).1
  | .drain => c.drain.1
  | .restore ps => c.restore ps
  | .snapshot => c
  | .reload => (ofSnapshot c.snapshot).toOption.getD c

def edits (c : Canvas) (ops : List Edit) : Canvas := ops.foldl edit c

end Canvas

namespace Grid
open Canvas (Edit Start)

def edit (g : Grid) : Edit → Grid
  | .paint p =>
    match (paint p).run g with
    | .ok _ g => g
    | .error _ g => g
  | .paintAll ps => (g.paintAll ps).1
  | .drain => g.drain.1
  | .restore ps => g.restore ps
  | .snapshot => g
  | .reload => (ofSnapshot g.snapshot).toOption.getD g

def edits (g : Grid) (ops : List Edit) : Grid := ops.foldl edit g

theorem edit_of (c : Canvas) (op : Edit) : (of c).edit op = of (c.edit op) := by
  cases op with
  | paint p =>
    rw [edit, run_paint, Canvas.edit]
    cases c.paint p <;> rfl
  | paintAll ps =>
    rw [edit, paintAll_of]
    rfl
  | drain =>
    rw [edit, drain_of]
    rfl
  | restore ps => exact restore_of c ps
  | snapshot => rfl
  | reload =>
    rw [edit, snapshot_of, ofSnapshot_eq, Canvas.edit]
    cases Canvas.ofSnapshot c.snapshot <;> rfl

theorem edits_of (c : Canvas) (ops : List Edit) : (of c).edits ops = of (c.edits ops) :=
  List.foldl_hom of edit_of

theorem grid_eq (s : Start) : s.grid = s.build.map of := by
  cases s with
  | blank width height color => exact blank_eq width height color
  | stored picture => exact ofSnapshot_eq picture

end Grid

namespace Canvas

namespace Start

theorem isValid_stored {picture : Snapshot} : (stored picture).IsValid ↔
    picture.check = .ok () ∧ picture.unknownColor? = none := by
  rw [Snapshot.check_eq_ok_iff, Snapshot.unknownColor?_eq_none, and_assoc, and_assoc]
  rfl

/-- A canvas is built in the given size, and shows the given colours. -/
structure Built (s : Start) (c : Canvas) : Prop where
  width : c.width = s.width
  height : c.height = s.height
  version : c.version = 0
  shown : ∀ x y, c.Holds x y → c.get? x y = s.color? x y

theorem exists_built {s : Start} (h : s.IsValid) : ∃ c, s.build = .ok c ∧ s.Built c := by
  cases s with
  | blank width height color =>
    obtain ⟨hw, hh, hc⟩ := h
    obtain ⟨c, hb, hs, hu⟩ := exists_blank hw hh hc
    have hcells : c.cells.toList = .replicate (width.toNat * height.toNat) color :=
      congrArg Snapshot.pixels hs
    have hwc : c.width = width := congrArg Snapshot.width hs
    have hhc : c.height = height := congrArg Snapshot.height hs
    refine ⟨c, hb, hwc, hhc, hu.version, ?_⟩
    intro x y hxy
    have hi := index_lt hxy
    rw [area, hwc, hhc] at hi
    rw [get?, if_pos hxy, ← Array.getElem?_toList, hcells, List.getElem?_replicate, if_pos hi]
    rfl
  | stored picture =>
    obtain ⟨hk, hc⟩ := isValid_stored.1 h
    obtain ⟨c, hb, hs, hu⟩ := exists_ofSnapshot hk hc
    have hcells : c.cells.toList = picture.pixels := congrArg Snapshot.pixels hs
    have hwc : c.width = picture.width := congrArg Snapshot.width hs
    refine ⟨c, hb, hwc, congrArg Snapshot.height hs, hu.version, ?_⟩
    intro x y hxy
    rw [get?, if_pos hxy, ← Array.getElem?_toList, hcells, index, hwc]
    rfl

theorem isValid_of_build {s : Start} {c : Canvas} (h : s.build = .ok c) : s.IsValid := by
  cases s with
  | blank width height color =>
    rw [build, Canvas.blank] at h
    split at h
    · cases h
    · rename_i hn
      split at h
      · rename_i hc
        exact ⟨(not_or.1 hn).1, (not_or.1 hn).2, hc⟩
      · cases h
  | stored picture =>
    rw [build] at h
    rw [isValid_stored]
    cases hk : picture.check with
    | error e =>
      rw [ofSnapshot_of_check hk] at h
      cases h
    | ok _ =>
      cases hc : picture.unknownColor? with
      | none => exact ⟨rfl, rfl⟩
      | some color =>
        rw [ofSnapshot_of_unknownColor hk hc] at h
        cases h

end Start

/-- What a canvas is after the operations. -/
structure Tracks (s : Start) (ops : List Edit) (c : Canvas) : Prop where
  width : c.width = s.width
  height : c.height = s.height
  shown : ∀ x y, c.Holds x y → c.get? x y = (lastAt x y (s.accepted ops)).or (s.color? x y)
  version : c.version = (s.accepted (Edit.sinceReload ops)).length

variable {s : Start} {c d : Canvas} {ops : List Edit} {op : Edit}

theorem accepts_iff (hw : c.width = s.width) (hh : c.height = s.height) (p : Pixel) :
    c.Accepts p ↔ s.Accepts p := by
  rw [Accepts, Holds, hw, hh]
  rfl

theorem Start.Built.tracks (h : s.Built c) : Tracks s [] c :=
  ⟨h.width, h.height, h.shown, h.version⟩

theorem accepted_concat (s : Start) (ops : List Edit) (op : Edit) : s.accepted (ops ++ [op]) =
    s.accepted ops ++ op.pixels.filter fun p => s.Accepts p := by
  rw [Start.accepted, List.flatMap_append, List.flatMap_singleton, List.filter_append]
  rfl

theorem sinceReload_concat (ops : List Edit) (op : Edit) : Edit.sinceReload (ops ++ [op]) =
    if op = .reload then [] else Edit.sinceReload ops ++ [op] := by
  rw [Edit.sinceReload]
  split
  · rename_i h
    exact List.rtakeWhile_concat_neg _ _ _ (by simp [h])
  · rename_i h
    exact List.rtakeWhile_concat_pos _ _ _ (by simp [h])

theorem Tracks.keep (h : Tracks s ops c) (hp : op.pixels = []) (hw : d.width = c.width)
    (hh : d.height = c.height) (hc : d.cells = c.cells)
    (hv : d.version = if op = .reload then 0 else c.version) : Tracks s (ops ++ [op]) d := by
  have ha : ∀ ops : List Edit, s.accepted (ops ++ [op]) = s.accepted ops := by
    intro ops
    rw [accepted_concat, hp, List.filter_nil, List.append_nil]
  refine ⟨hw.trans h.width, hh.trans h.height, ?_, ?_⟩
  · intro x y hxy
    rw [get?_eq_of_eq hw hh hc, ha]
    exact h.shown x y ((holds_iff_of_eq hw hh).1 hxy)
  · rw [hv, sinceReload_concat]
    split
    · rfl
    · rw [ha, h.version]

theorem Tracks.cover (h : Tracks s ops c) (ho : op ≠ .reload)
    (hc : c.Covered d (c.accepted op.pixels)) : Tracks s (ops ++ [op]) d := by
  have ha : (op.pixels.filter fun p => s.Accepts p) = c.accepted op.pixels := by
    apply List.filter_congr
    intro p _
    rw [decide_eq_decide, accepts_iff h.width h.height]
  refine ⟨hc.width.trans h.width, hc.height.trans h.height, ?_, ?_⟩
  · intro x y hxy
    rw [hc.shown, h.shown x y ((holds_iff_of_eq hc.width hc.height).1 hxy), accepted_concat, ha,
      Pixel.lastAt_append, Option.or_assoc]
  · rw [hc.version, h.version, sinceReload_concat, if_neg ho, accepted_concat, ha,
      List.length_append]

theorem exists_reload (c : Canvas) :
    ∃ d, ofSnapshot c.snapshot = .ok d ∧ d.snapshot = c.snapshot ∧ d.IsUntouched :=
  exists_ofSnapshot c.check_snapshot c.unknownColor?_snapshot

theorem Tracks.edit (h : Tracks s ops c) (op : Edit) :
    Tracks s (ops ++ [op]) (c.edit op) := by
  cases op with
  | paint p =>
    have hp : c.edit (.paint p) = (c.paintAll [p]).1 := by
      rw [fst_paintAll, List.foldl_cons, List.foldl_nil, Canvas.edit]
      cases c.paint p <;> rfl
    rw [hp]
    exact h.cover nofun (c.covered_paintAll [p])
  | paintAll ps => exact h.cover nofun (c.covered_paintAll ps)
  | drain => exact h.keep rfl rfl rfl rfl rfl
  | restore ps =>
    obtain ⟨hw, hh, hc, hv⟩ := c.restore_eq ps
    exact h.keep rfl hw hh hc hv
  | snapshot => exact h.keep rfl rfl rfl rfl rfl
  | reload =>
    obtain ⟨d, hd, hs, hu⟩ := c.exists_reload
    have he : c.edit .reload = d := by rw [Canvas.edit, hd]; rfl
    rw [he]
    exact h.keep rfl (congrArg Snapshot.width hs) (congrArg Snapshot.height hs)
      (Array.toList_inj.1 (congrArg Snapshot.pixels hs)) hu.version

theorem Tracks.edits (h : Tracks s [] c) (ops : List Edit) : Tracks s ops (c.edits ops) := by
  induction ops using List.reverseRecOn with
  | nil => exact h
  | append_singleton ops op ih =>
    rw [Canvas.edits, List.foldl_append]
    exact ih.edit op

end Canvas

/-- What a grid is after the operations. -/
structure Grid.Shows (s : Canvas.Start) (ops : List Canvas.Edit) (g : Grid) : Prop where
  width : g.width = s.width
  height : g.height = s.height
  size : g.cells.size = s.width.toNat * s.height.toNat
  palette : ∀ color ∈ g.cells, color.toNat < 30
  marks : ∀ p ∈ g.marks, p.x < s.width ∧ p.y < s.height
  index_lt : ∀ x y i, g.index? x y = some i → i < g.cells.size
  index_inj : ∀ x y x' y' i, g.index? x y = some i → g.index? x' y' = some i → x = x' ∧ y = y'
  outside : ∀ x y, ¬ (x < s.width ∧ y < s.height) → g.get? x y = none
  shown : ∀ x y, x < s.width ∧ y < s.height →
    g.get? x y = (lastAt x y (s.accepted ops)).or (s.color? x y) ∧ (g.get? x y).isSome = true
  version : g.version = (s.accepted (Canvas.Edit.sinceReload ops)).length

namespace Canvas

variable {s : Start} {c d : Canvas} {ops : List Edit} {p : Pixel}

theorem Tracks.shows (h : Tracks s ops c) : (Grid.of c).Shows s ops := by
  have hh : ∀ x y, c.Holds x y ↔ x < s.width ∧ y < s.height := by
    intro x y
    rw [Holds, h.width, h.height]
  have hi : ∀ x y i, (Grid.of c).index? x y = some i → c.Holds x y ∧ c.index x y = i := by
    intro x y i hi
    rw [Grid.index?_of] at hi
    split at hi
    · exact ⟨‹_›, Option.some.inj hi⟩
    · cases hi
  refine ⟨h.width, h.height, ?_, c.palette, ?_, ?_, ?_, ?_, ?_, h.version⟩
  · rw [← h.width, ← h.height]
    exact c.size_cells
  · intro p hp
    exact (hh p.x p.y).1 (holds_of_mem_announcements hp)
  · intro x y i hxy
    obtain ⟨hc, rfl⟩ := hi x y i hxy
    exact Nat.lt_of_lt_of_eq (index_lt hc) c.size_cells.symm
  · intro x y x' y' i hxy hxy'
    obtain ⟨hc, rfl⟩ := hi x y i hxy
    obtain ⟨hc', he⟩ := hi x' y' _ hxy'
    exact (index_inj hc hc').1 he.symm
  · intro x y hxy
    rw [Grid.get?_of, get?, if_neg (mt (hh x y).1 hxy)]
  · intro x y hxy
    have hc := (hh x y).2 hxy
    rw [Grid.get?_of]
    refine ⟨h.shown x y hc, ?_⟩
    rw [get?, if_pos hc, Array.getElem?_eq_getElem (c.size_cells.symm ▸ index_lt hc)]
    rfl

theorem paint_eq (hw : c.width = s.width) (hh : c.height = s.height) (p : Pixel) : c.paint p =
    if p.x < s.width ∧ p.y < s.height then
      if p.color.toNat < 30 then .ok (c.edit (.paint p)) else .error (.unknownColor p.color)
    else .error (.outside p.x p.y s.width s.height) := by
  have hi : c.Holds p.x p.y ↔ p.x < s.width ∧ p.y < s.height := by rw [Holds, hw, hh]
  by_cases hp : c.Holds p.x p.y
  · rw [if_pos (hi.1 hp)]
    by_cases hc : p.color.toNat < 30
    · obtain ⟨d, hd⟩ := exists_paint_of_accepts (c := c) ⟨hp, hc⟩
      rw [if_pos hc, edit, hd]
      rfl
    · rw [if_neg hc, paint, if_neg (not_not_intro hp)]
      exact dif_neg hc
  · rw [if_neg (mt hi.2 hp), paint, if_pos hp, hw, hh]

/-- Whatever is done to a canvas, every cell shows the last pixel that was accepted for it, else its
first colour; only pixels in the canvas and of a known colour are accepted, and they are counted
from the last load on. A batch is painted one pixel after another. A canvas that is stored and
loaded is the same, with nothing to announce. All this holds of the plain grid, which is written in
place, as well. -/
theorem shows_last_accepted (s : Start) (ops : List Edit) :
    ((∃ c, s.build = .ok c) ↔ s.IsValid) ∧ ∀ c, s.build = .ok c →
      let d := c.edits ops
      let g := Grid.of d
      s.grid = .ok (Grid.of c) ∧ (Grid.of c).edits ops = g ∧ (∀ x y, d.get? x y = g.get? x y) ∧
      g.Shows s ops ∧
      (∀ p, d.paint p =
        if p.x < s.width ∧ p.y < s.height then
          if p.color.toNat < 30 then .ok (d.edit (.paint p)) else .error (.unknownColor p.color)
        else .error (.outside p.x p.y s.width s.height)) ∧
      (∀ p, (Grid.paint p).run g =
        match d.paint p with
        | .ok e => .ok () (Grid.of e)
        | .error e => .error e g) ∧
      (∀ ps, g.paintAll ps = (Grid.of (d.paintAll ps).1, (d.paintAll ps).2)) ∧
      ∃ e, ofSnapshot d.snapshot = .ok e ∧ Grid.ofSnapshot g.snapshot = .ok (Grid.of e) ∧
        Grid.of e = { g with marks := [], version := 0 } := by
  refine ⟨⟨fun ⟨c, hc⟩ => Start.isValid_of_build hc, fun h => ?_⟩, ?_⟩
  · obtain ⟨c, hc, -⟩ := Start.exists_built h
    exact ⟨c, hc⟩
  · intro c hc d g
    obtain ⟨c', hc', hb⟩ := Start.exists_built (Start.isValid_of_build hc)
    obtain rfl : c' = c := Except.ok.inj (hc'.symm.trans hc)
    have hd : Tracks s ops d := hb.tracks.edits ops
    obtain ⟨e, he, hs, hu⟩ := d.exists_reload
    refine ⟨?_, Grid.edits_of c' ops, fun x y => (Grid.get?_of d x y).symm, hd.shows,
      paint_eq hd.width hd.height, Grid.run_paint d, Grid.paintAll_of d, e, he, ?_, ?_⟩
    · rw [Grid.grid_eq, hc]
      rfl
    · rw [Grid.snapshot_of, Grid.ofSnapshot_eq, he]
      rfl
    · rw [Grid.of_eq hu hs]
      rfl

/-- On a canvas that is wider than high a pixel counts for its own cell only, and not for the one
that has its row and column exchanged. What is put back is not shown. -/
theorem shows_last_accepted_wide :
    let s : Start := .blank 3 2 Palette.white
    let ops : List Edit := [.paint ⟨2, 1, 4⟩, .paintAll [⟨1, 2, 5⟩, ⟨2, 1, 6⟩, ⟨0, 0, 30⟩], .drain,
      .restore [⟨0, 1, 7⟩, ⟨9, 9, 8⟩], .reload, .paint ⟨0, 0, 3⟩]
    ∃ c, s.build = .ok c ∧ (c.edits ops).get? 2 1 = some 6 ∧ (c.edits ops).get? 1 2 = none ∧
      (c.edits ops).get? 0 1 = some 29 ∧ (Grid.of (c.edits ops)).version = 1 ∧
      (c.edits ops).paint ⟨1, 2, 30⟩ = .error (.outside 1 2 3 2) ∧
      (c.edits ops).paint ⟨1, 1, 30⟩ = .error (.unknownColor 30) := by
  intro s ops
  obtain ⟨c, hc⟩ := (shows_last_accepted s ops).1.2 ⟨by decide, by decide, by decide⟩
  obtain ⟨-, -, hg, hs, hp, -⟩ := (shows_last_accepted s ops).2 c hc
  refine ⟨c, hc, ?_, ?_, ?_, hs.version, hp _, hp _⟩
  · rw [hg]
    exact (hs.shown 2 1 (by decide)).1
  · rw [hg]
    exact hs.outside 1 2 (by decide)
  · rw [hg]
    exact (hs.shown 0 1 (by decide)).1

end Canvas
end SharedCanvas
