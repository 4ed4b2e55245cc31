import SharedCanvas.Proofs.Canvas.Accepted
import Mathlib.Data.List.Induction

namespace SharedCanvas
open Pixel (lastAt)

/-- The order of the cells, row by row. -/
def Pixel.Before (p q : Pixel) : Prop := p.y < q.y ∨ p.y = q.y ∧ p.x < q.x

namespace Pixel

instance (p q : Pixel) : Decidable (p.Before q) := inferInstanceAs (Decidable (_ ∨ _))

def rank (p : Pixel) : Nat := p.y.toNat * 65536 + p.x.toNat

variable {p q : Pixel}

theorem before_iff : p.Before q ↔ p.rank < q.rank := by
  have hp := p.x.toNat_lt
  have hq := q.x.toNat_lt
  rw [Before, UInt16.lt_iff_toNat_lt, UInt16.lt_iff_toNat_lt, ← UInt16.toNat_inj, rank, rank]
  omega

theorem rank_eq_iff : p.rank = q.rank ↔ p.x = q.x ∧ p.y = q.y := by
  have hp := p.x.toNat_lt
  have hq := q.x.toNat_lt
  rw [← UInt16.toNat_inj, ← UInt16.toNat_inj, rank, rank]
  omega

instance : Std.Irrefl Before := ⟨fun _ h => Nat.lt_irrefl _ (before_iff.1 h)⟩

instance : Std.Antisymm Before :=
  ⟨fun _ _ h h' => absurd (before_iff.1 h) (Nat.lt_asymm (before_iff.1 h'))⟩

theorem ne_of_before (h : p.Before q) : ¬ (p.x = q.x ∧ p.y = q.y) :=
  fun he => Nat.ne_of_lt (before_iff.1 h) (rank_eq_iff.2 he)

end Pixel

namespace Canvas

/-- What can be done to a canvas. Only what was drained last is put back. -/
inductive Operation
  | paint (p : Pixel)
  | paintAll (ps : List Pixel)
  | drain
  | restore
deriving DecidableEq, Repr

/-- What has been done to a canvas. Pixels that were refused are not noted. -/
inductive Entry
  | painted (p : Pixel)
  | drained (ps : List Pixel)
  | restored
deriving DecidableEq, Repr

abbrev Log := List Entry

namespace Log

def pixels : Log → List Pixel
  | [] => []
  | .painted p :: log => pixels log ++ [p]
  | .drained _ :: log | .restored :: log => pixels log

def last? : Log → Option (List Pixel)
  | [] => none
  | .drained ps :: _ => some ps
  | .painted _ :: log | .restored :: log => last? log

/-- The pixels painted since the last drain that was not put back, oldest first. With `back` the
newest drain of the log counts as put back. -/
def due (log : Log) (back : Bool) : List Pixel :=
  match log with
  | [] => []
  | .painted p :: log => due log back ++ [p]
  | .restored :: log => due log true
  | .drained _ :: log => if back then due log false else []

/-- Every drain that was not put back, with the pixels that were due before it, oldest first. -/
def settled (log : Log) (back : Bool) : List (List Pixel × List Pixel) :=
  match log with
  | [] => []
  | .painted _ :: log => settled log back
  | .restored :: log => settled log true
  | .drained ps :: log =>
    if back then settled log false else settled log false ++ [(due log false, ps)]

/-- The drain took the cells that were due, in order, each in its last colour. -/
structure Takes (c : Canvas) (log : Log) (ps : List Pixel) : Prop where
  colors : ∀ x y, lastAt x y ps = lastAt x y (log.due false)
  order : ps.Pairwise Pixel.Before
  holds : ∀ p ∈ ps, c.Holds p.x p.y

/-- Every drain of the log took what was due. -/
def IsExact (c : Canvas) : Log → Prop
  | [] => True
  | .drained ps :: log => Takes c log ps ∧ IsExact c log
  | .painted _ :: log | .restored :: log => IsExact c log

end Log

/-- A canvas, and what has been done to it. -/
structure Record where
  canvas : Canvas
  log : Log

namespace Record

def paint (r : Record) (p : Pixel) : Record :=
  match r.canvas.paint p with
  | .ok c => ⟨c, .painted p :: r.log⟩
  | .error _ => r

def perform (r : Record) : Operation → Record
  | .paint p => r.paint p
  | .paintAll ps => ⟨(r.canvas.paintAll ps).1, (ps.foldl paint r).log⟩
  | .drain => ⟨r.canvas.drain.1, .drained r.canvas.drain.2 :: r.log⟩
  | .restore =>
    match r.log.last? with
    | none => r
    | some ps => ⟨r.canvas.restore ps, .restored :: r.log⟩

end Record

/-- Whatever is pending is pending in the colour that is shown. -/
def IsCurrent (c : Canvas) : Prop :=
  ∀ x y color, c.pendingAt x y = some color → c.get? x y = some color

/-- A canvas, and of what was done to it before that what is pending was painted. -/
def record (c : Canvas) : Record := ⟨c, c.announcements.reverse.map .painted⟩

def run (c : Canvas) (ops : List Operation) : Record := ops.foldl Record.perform c.record

variable {c d : Canvas} {p q : Pixel} {ps : List Pixel} {x y : UInt16}

theorem before_of_index_lt (hq : c.Holds q.x q.y) (h : c.index p.x p.y < c.index q.x q.y) :
    p.Before q := by
  have hqx : q.x.toNat < c.width.toNat := UInt16.lt_iff_toNat_lt.1 hq.1
  unfold index at h
  rcases Nat.lt_trichotomy p.y.toNat q.y.toNat with hy | hy | hy
  · exact .inl (UInt16.lt_iff_toNat_lt.2 hy)
  · rw [hy] at h
    exact .inr ⟨UInt16.toNat_inj.1 hy, UInt16.lt_iff_toNat_lt.2 (by omega)⟩
  · -- A cell of a later row stands behind the whole row of the other.
    have hm := Nat.mul_le_mul_right c.width.toNat (Nat.succ_le_of_lt hy)
    rw [Nat.succ_mul] at hm
    omega

theorem before_announcements (c : Canvas) : c.announcements.Pairwise Pixel.Before :=
  c.pairwise_announcements.imp_of_mem fun _ hq =>
    before_of_index_lt (holds_of_mem_announcements hq)

theorem mem_announcements : p ∈ c.announcements ↔ c.pendingAt p.x p.y = some p.color := by
  rw [announcements, List.mem_filterMap]
  constructor
  · rintro ⟨i, hi, hp⟩
    obtain ⟨a, ha, rfl⟩ := Option.map_eq_some_iff.1 hp
    obtain ⟨hh, hidx⟩ := holds_pixelAt (List.mem_range.1 hi) a
    rw [pendingAt, if_pos hh, hidx, ha]
    rfl
  · intro h
    unfold pendingAt at h
    split at h
    · rename_i hh
      obtain ⟨hh', hidx⟩ := holds_pixelAt (index_lt hh) p.color
      obtain ⟨hx, hy⟩ := (index_inj hh' hh).1 hidx
      refine ⟨c.index p.x p.y, List.mem_range.2 (index_lt hh), ?_⟩
      rw [h, Option.map_some, Option.some.injEq]
      cases p
      exact Pixel.mk.injEq .. ▸ ⟨hx, hy, rfl⟩
    · simp at h

theorem get?_restore (c : Canvas) (ps : List Pixel) (x y : UInt16) :
    (c.restore ps).get? x y = c.get? x y := by
  obtain ⟨hw, hh, hc, -⟩ := c.restore_eq ps
  exact get?_eq_of_eq hw hh hc

namespace Log
variable {log : Log}

theorem map_painted (ps : List Pixel) : let log : Log := ps.reverse.map .painted
    log.pixels = ps ∧ log.due false = ps ∧ log.IsExact c := by
  induction ps using List.reverseRecOn with
  | nil => exact ⟨rfl, rfl, trivial⟩
  | append_singleton ps p ih =>
    obtain ⟨hp, hd, he⟩ := ih
    rw [List.reverse_concat, List.map_cons]
    exact ⟨congrArg (· ++ [p]) hp, congrArg (· ++ [p]) hd, he⟩

theorem pixels_eq (log : Log) (back : Bool) :
    log.pixels = (log.settled back).flatMap Prod.fst ++ log.due back := by
  induction log generalizing back with
  | nil => rfl
  | cons e log ih =>
    cases e with
    | painted p => rw [pixels, settled, due, ih back, List.append_assoc]
    | restored => rw [pixels, settled, due, ih true]
    | drained ps =>
      rw [pixels, settled, due, ih false]
      cases back <;> simp

theorem lastAt_due_true (h : log.IsExact c) (x y : UInt16) : lastAt x y (log.due true) =
    (lastAt x y (log.due false)).or (lastAt x y (log.last?.getD [])) := by
  induction log with
  | nil => rfl
  | cons e log ih =>
    cases e with
    | painted p =>
      rw [due, due, last?, Pixel.lastAt_append, Pixel.lastAt_append, ih h, Option.or_assoc]
    | restored => rw [due, due, last?, ih h, Option.or_assoc, Option.or_self]
    | drained ps => exact (h.1.colors x y).symm

theorem takes_of_last? (h : log.IsExact c) (hl : log.last? = some ps) :
    ∃ before, Takes c before ps := by
  induction log with
  | nil => simp [last?] at hl
  | cons e log ih =>
    cases e with
    | painted p => exact ih h hl
    | restored => exact ih h hl
    | drained qs =>
      rw [last?, Option.some.injEq] at hl
      exact ⟨log, hl ▸ h.1⟩

theorem of_mem_settled (h : log.IsExact c) {back : Bool} {s : List Pixel × List Pixel}
    (hs : s ∈ log.settled back) :
    s.2.Pairwise Pixel.Before ∧ ∀ x y, lastAt x y s.2 = lastAt x y s.1 := by
  induction log generalizing back with
  | nil => simp [settled] at hs
  | cons e log ih =>
    cases e with
    | painted p => exact ih h hs
    | restored => exact ih h hs
    | drained ps =>
      cases back with
      | true => exact ih h.2 hs
      | false =>
        rcases List.mem_append.1 hs with hs | hs
        · exact ih h.2 hs
        · rw [List.mem_singleton.1 hs]
          exact ⟨h.1.order, h.1.colors⟩

end Log

namespace Record

/-- The log tells what the canvas shows and what of it is pending. -/
structure Sound (start : Canvas) (r : Record) : Prop where
  width : r.canvas.width = start.width
  height : r.canvas.height = start.height
  shown : ∀ x y, r.canvas.get? x y = (lastAt x y r.log.pixels).or (start.get? x y)
  pending : ∀ x y, r.canvas.pendingAt x y = lastAt x y (r.log.due false)
  exact : r.log.IsExact start

variable {start : Canvas} {r : Record}

theorem Sound.get?_eq (h : r.Sound start) {back : Bool} {color : UInt8}
    (hd : lastAt x y (r.log.due back) = some color) : r.canvas.get? x y = some color := by
  rw [h.shown, r.log.pixels_eq back, Pixel.lastAt_append, hd]
  rfl

theorem Sound.paint (h : r.Sound start) (p : Pixel) : (r.paint p).Sound start := by
  unfold Record.paint
  split
  · rename_i d hd
    have hp := (painted_of_paint hd).covered
    refine ⟨hp.width.trans h.width, hp.height.trans h.height, ?_, ?_, h.exact⟩
    · intro x y
      rw [hp.shown, Log.pixels, Pixel.lastAt_append, h.shown, Option.or_assoc]
    · intro x y
      rw [hp.pending, Log.due, Pixel.lastAt_append, h.pending]
  · exact h

theorem perform_paintAll (r : Record) (ps : List Pixel) :
    r.perform (.paintAll ps) = ps.foldl Record.paint r := by
  have hc : (ps.foldl Record.paint r).canvas = (r.canvas.paintAll ps).1 := by
    rw [fst_paintAll]
    refine (List.foldl_hom Record.canvas ?_).symm
    intro r p
    unfold Record.paint
    split <;> simp_all
  rw [perform, ← hc]

theorem Sound.drain (h : r.Sound start) : (r.perform .drain).Sound start := by
  refine ⟨h.width, h.height, h.shown, fun x y => r.canvas.pendingAt_drain x y,
    ⟨?_, r.canvas.before_announcements, ?_⟩, h.exact⟩
  · intro x y
    exact (r.canvas.lastAt_announcements x y).trans (h.pending x y)
  · intro p hp
    exact (holds_iff_of_eq h.width h.height).1 (holds_of_mem_announcements hp)

/-- After what the last drain took is put back, it is due again. -/
theorem Sound.pendingAt_restore (h : r.Sound start) (hl : r.log.last? = some ps) (x y : UInt16) :
    (r.canvas.restore ps).pendingAt x y = lastAt x y (r.log.due true) := by
  obtain ⟨before, ht⟩ := Log.takes_of_last? h.exact hl
  have hh : ∀ p ∈ ps, r.canvas.Holds p.x p.y :=
    fun p hp => (holds_iff_of_eq h.width h.height).2 (ht.holds p hp)
  -- A drain takes no cell twice, so it does not matter in which order they are put back.
  have hd : ps.Pairwise fun p q => ¬ (p.x = q.x ∧ p.y = q.y) := ht.order.imp Pixel.ne_of_before
  rw [Canvas.pendingAt_restore hh hd, h.pending, Log.lastAt_due_true h.exact, hl]
  rfl

theorem Sound.restore (h : r.Sound start) : (r.perform .restore).Sound start := by
  rw [perform]
  split
  · exact h
  · rename_i ps hl
    obtain ⟨hw, hh, -, -⟩ := r.canvas.restore_eq ps
    exact ⟨hw.trans h.width, hh.trans h.height, fun x y => (get?_restore ..).trans (h.shown x y),
      h.pendingAt_restore hl, h.exact⟩

theorem Sound.perform (h : r.Sound start) (op : Operation) : (r.perform op).Sound start := by
  cases op with
  | paint p => exact h.paint p
  | paintAll ps =>
    rw [perform_paintAll]
    exact List.foldlRecOn ps Record.paint h fun r hr p _ => hr.paint p
  | drain => exact h.drain
  | restore => exact h.restore

end Record

theorem isCurrent_of_announcements (h : c.announcements = []) : c.IsCurrent := by
  intro x y color hp
  rw [← lastAt_announcements, h] at hp
  cases hp

theorem sound_record (h : c.IsCurrent) : c.record.Sound c := by
  obtain ⟨hp, hd, he⟩ := Log.map_painted (c := c) c.announcements
  refine ⟨rfl, rfl, ?_, ?_, he⟩
  · intro x y
    rw [record, hp, lastAt_announcements]
    cases hpe : c.pendingAt x y with
    | none => exact Option.none_or.symm
    | some color => exact h x y color hpe
  · intro x y
    rw [record, hd, lastAt_announcements]

theorem sound_run (h : c.IsCurrent) (ops : List Operation) : (c.run ops).Sound c :=
  List.foldlRecOn ops Record.perform (sound_record h) fun _ hr op _ => hr.perform op

/-- Whatever is done to a canvas, a drain takes exactly the cells that were painted since the last
drain that was not put back, row by row and each once, in the colour that they show, and leaves
nothing pending. Putting back what the last drain took changes no cell and no version; what is
pending then is pending in the colour shown, and what was pending before stays so. All pixels ever
painted are those that the drains that were not put back took, each drain its own, and behind them
those that are due. -/
theorem mem_drain_iff_due (h : c.IsCurrent) (ops : List Operation) :
    let r := c.run ops
    (∀ p, p ∈ r.canvas.drain.2 ↔ (∃ q ∈ r.log.due false, q.x = p.x ∧ q.y = p.y) ∧
      r.canvas.get? p.x p.y = some p.color) ∧
    r.canvas.drain.2.Pairwise Pixel.Before ∧
    r.canvas.drain.1.pendingCount = 0 ∧
    (∀ ps, r.log.last? = some ps →
      (r.canvas.restore ps).snapshot = r.canvas.snapshot ∧
      (r.canvas.restore ps).version = r.canvas.version ∧
      ∀ x y color, ((r.canvas.restore ps).pendingAt x y = some color →
        r.canvas.get? x y = some color) ∧
      (r.canvas.pendingAt x y = some color → (r.canvas.restore ps).pendingAt x y = some color)) ∧
    r.log.pixels = (r.log.settled false).flatMap Prod.fst ++ r.log.due false ∧
    ∀ painted drained, (painted, drained) ∈ r.log.settled false →
      drained.Pairwise Pixel.Before ∧ ∀ x y, lastAt x y drained = lastAt x y painted := by
  intro r
  have hr : r.Sound c := sound_run h ops
  refine ⟨?_, hr.drain.exact.1.order, ?_, ?_, r.log.pixels_eq false,
    fun _ _ hs => Log.of_mem_settled hr.exact hs⟩
  · intro p
    change p ∈ r.canvas.announcements ↔ _
    rw [mem_announcements, hr.pending]
    constructor
    · intro hp
      refine ⟨?_, hr.get?_eq hp⟩
      -- If nothing that is due were for the cell, nothing would be pending there.
      apply Classical.byContradiction
      intro hn
      have hnone : lastAt p.x p.y (r.log.due false) = none :=
        Pixel.lastAt_eq_none fun q hq he => hn ⟨q, hq, he.1.symm, he.2.symm⟩
      rw [hnone] at hp
      simp at hp
    · rintro ⟨⟨q, hq, hx, hy⟩, hg⟩
      obtain ⟨color, hc⟩ := Option.isSome_iff_exists.1 (Pixel.isSome_lastAt hq)
      rw [hx, hy] at hc
      rw [hc, ← hr.get?_eq hc, hg]
  · simp [drain, pendingCount, Array.countP_replicate]
  · intro ps hl
    obtain ⟨hw, hh, hc, hv⟩ := r.canvas.restore_eq ps
    refine ⟨?_, hv, ?_⟩
    · rw [snapshot, snapshot, hw, hh, hc]
    · intro x y color
      rw [hr.pendingAt_restore hl]
      refine ⟨hr.get?_eq, ?_⟩
      intro hp
      rw [Log.lastAt_due_true hr.exact, ← hr.pending, hp]
      rfl

/-- Two cells are drained and put back, after one of them was painted again. -/
theorem mem_drain_iff_due_put_back : ∃ c : Canvas, c.IsCurrent ∧
    let r := c.run [.paint ⟨0, 0, 3⟩, .paint ⟨1, 0, 4⟩, .drain,
      .paintAll [⟨0, 0, 5⟩, ⟨2, 0, 6⟩], .restore]
    r.log.due false = [⟨0, 0, 3⟩, ⟨1, 0, 4⟩, ⟨0, 0, 5⟩] ∧
    r.canvas.drain.2.Pairwise Pixel.Before ∧ ⟨0, 0, 5⟩ ∈ r.canvas.drain.2 ∧
    ⟨1, 0, 4⟩ ∈ r.canvas.drain.2 ∧ ⟨0, 0, 3⟩ ∉ r.canvas.drain.2 := by
  let canvas : Canvas := ⟨2, 1, .replicate 2 Palette.white, .replicate 2 none, 0, rfl, rfl,
    fun _ hc => (Array.mem_replicate.1 hc).2 ▸ Palette.has_white, by decide⟩
  have h : canvas.IsCurrent := isCurrent_of_announcements rfl
  obtain ⟨hm, ho, -⟩ := mem_drain_iff_due h [.paint ⟨0, 0, 3⟩, .paint ⟨1, 0, 4⟩, .drain,
    .paintAll [⟨0, 0, 5⟩, ⟨2, 0, 6⟩], .restore]
  refine ⟨canvas, h, by decide +kernel, ho, (hm _).2 ?_, (hm _).2 ?_, fun h3 => ?_⟩
  · exact ⟨⟨⟨0, 0, 3⟩, by decide +kernel, rfl, rfl⟩, by decide +kernel⟩
  · exact ⟨⟨⟨1, 0, 4⟩, by decide +kernel, rfl, rfl⟩, by decide +kernel⟩
  · exact absurd ((hm _).1 h3).2 (by decide +kernel)

end Canvas
end SharedCanvas
