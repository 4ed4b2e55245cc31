import SharedCanvas.Proofs.Canvas.Built
import SharedCanvas.Proofs.Canvas.Drained
import Mathlib.Data.List.Sort

namespace SharedCanvas

namespace Pixel

variable {p q r : Pixel} {ps qs : List Pixel}

/-- Marks a cell, in the order of the cells. A mark that is there is kept or replaced. -/
def mark (keep : Bool) (p : Pixel) : List Pixel → List Pixel
  | [] => [p]
  | q :: qs =>
    if p.Before q then p :: q :: qs
    else if q.Before p then q :: mark keep p qs
    else if keep then q :: qs
    else p :: qs

theorem eq_or_mem_of_mem_mark {keep : Bool} (h : r ∈ mark keep p qs) : r = p ∨ r ∈ qs := by
  induction qs with
  | nil => exact .inl (List.mem_singleton.1 h)
  | cons q qs ih =>
    unfold mark at h
    split at h
    · exact List.mem_cons.1 h
    · split at h
      · rcases List.mem_cons.1 h with h | h
        · exact .inr (List.mem_cons.2 (.inl h))
        · exact (ih h).imp_right (List.mem_cons_of_mem q)
      · split at h
        · exact .inr h
        · exact (List.mem_cons.1 h).imp_right (List.mem_cons_of_mem q)

theorem rank_eq_of_not_before (h : ¬ p.Before q) (h' : ¬ q.Before p) : p.rank = q.rank := by
  rw [before_iff] at h h'
  omega

theorem pairwise_mark (keep : Bool) (p : Pixel) (h : qs.Pairwise Before) :
    (mark keep p qs).Pairwise Before := by
  induction qs with
  | nil => exact List.pairwise_singleton _ _
  | cons q qs ih =>
    obtain ⟨hq, hqs⟩ := List.pairwise_cons.1 h
    unfold mark
    split
    · rename_i hp
      refine List.pairwise_cons.2 ⟨List.forall_mem_cons.2 ⟨hp, ?_⟩, h⟩
      intro r hr
      exact before_iff.2 (Nat.lt_trans (before_iff.1 hp) (before_iff.1 (hq r hr)))
    · split
      · rename_i hp
        refine List.pairwise_cons.2 ⟨?_, ih hqs⟩
        intro r hr
        rcases eq_or_mem_of_mem_mark hr with rfl | hr
        · exact hp
        · exact hq r hr
      · rename_i hn hn'
        split
        · exact h
        · refine List.pairwise_cons.2 ⟨?_, hqs⟩
          intro r hr
          rw [before_iff, rank_eq_of_not_before hn hn']
          exact before_iff.1 (hq r hr)

theorem mem_iff_lastAt (h : qs.Pairwise Before) : r ∈ qs ↔ lastAt r.x r.y qs = some r.color := by
  induction qs with
  | nil => simp [lastAt]
  | cons q qs ih =>
    obtain ⟨hq, hqs⟩ := List.pairwise_cons.1 h
    rw [List.mem_cons, lastAt]
    by_cases he : r.x = q.x ∧ r.y = q.y
    · have hn : lastAt r.x r.y qs = none := by
        apply lastAt_eq_none
        rw [he.1, he.2]
        exact fun s hs => ne_of_before (hq s hs)
      have hr : r ∉ qs := fun hr => ne_of_before (hq r hr) ⟨he.1.symm, he.2.symm⟩
      rw [hn, if_pos he, Option.none_or, Option.some.injEq, or_iff_left hr]
      constructor
      · rintro rfl
        rfl
      · intro hc
        cases r
        cases q
        simp only [mk.injEq]
        exact ⟨he.1, he.2, hc.symm⟩
    · have hr : r ≠ q := by
        rintro rfl
        exact he ⟨rfl, rfl⟩
      rw [if_neg he, Option.or_none, or_iff_right hr, ih hqs]

theorem eq_of_lastAt (hp : ps.Pairwise Before) (hq : qs.Pairwise Before)
    (h : ∀ x y, lastAt x y ps = lastAt x y qs) : ps = qs := by
  apply hp.eq_of_mem_iff hq
  intro r
  rw [mem_iff_lastAt hp, mem_iff_lastAt hq, h]

theorem lastAt_eq_none_of_before (h : ∀ q ∈ qs, p.Before q) : lastAt p.x p.y qs = none :=
  lastAt_eq_none fun q hq => ne_of_before (h q hq)

/-- A mark is that of its cell, unless what is marked there is to be kept. -/
theorem lastAt_mark_self (keep : Bool) (p : Pixel) (h : qs.Pairwise Before) :
    lastAt p.x p.y (mark keep p qs) =
      if keep then (lastAt p.x p.y qs).or (some p.color) else some p.color := by
  have hp : p.x = p.x ∧ p.y = p.y := ⟨rfl, rfl⟩
  induction qs with
  | nil => rw [mark, lastAt_singleton, if_pos hp, lastAt, Option.none_or, ite_self]
  | cons q qs ih =>
    obtain ⟨hq, hqs⟩ := List.pairwise_cons.1 h
    unfold mark
    split
    · rename_i hpq
      have hn : lastAt p.x p.y (q :: qs) = none := by
        refine lastAt_eq_none_of_before (List.forall_mem_cons.2 ⟨hpq, fun r hr => ?_⟩)
        exact before_iff.2 (Nat.lt_trans (before_iff.1 hpq) (before_iff.1 (hq r hr)))
      rw [lastAt, hn, if_pos hp, Option.none_or, ite_self]
    · rename_i hn
      split
      · rename_i hqp
        have hne : ¬ (p.x = q.x ∧ p.y = q.y) := fun he => ne_of_before hqp ⟨he.1.symm, he.2.symm⟩
        rw [lastAt, lastAt, if_neg hne, Option.or_none, Option.or_none, ih hqs]
      · rename_i hn'
        have hr := rank_eq_of_not_before hn hn'
        have hnone : lastAt p.x p.y qs = none := by
          apply lastAt_eq_none_of_before
          intro r hm
          rw [before_iff, hr]
          exact before_iff.1 (hq r hm)
        cases keep with
        | true =>
          rw [if_pos rfl, if_pos rfl, lastAt, hnone, if_pos (rank_eq_iff.1 hr), Option.none_or,
            Option.some_or]
        | false =>
          rw [if_neg Bool.false_ne_true, if_neg Bool.false_ne_true, lastAt, hnone, if_pos hp,
            Option.none_or]

theorem lastAt_mark_of_ne (keep : Bool) {x y : UInt16} (h : ¬ (x = p.x ∧ y = p.y)) :
    lastAt x y (mark keep p qs) = lastAt x y qs := by
  induction qs with
  | nil => rw [mark, lastAt_singleton, if_neg h, lastAt]
  | cons q qs ih =>
    unfold mark
    split
    · rw [lastAt, if_neg h, Option.or_none]
    · rename_i hn
      split
      · rw [lastAt, lastAt, ih]
      · rename_i hn'
        split
        · rfl
        · obtain ⟨hx, hy⟩ := rank_eq_iff.1 (rank_eq_of_not_before hn hn')
          rw [lastAt, lastAt, if_neg h, if_neg (hx ▸ hy ▸ h)]

end Pixel

/-- A canvas of which nothing is promised. -/
structure Grid where
  width : UInt16
  height : UInt16
  /-- Row by row. -/
  cells : Array UInt8
  /-- What is still to be announced, in the order of the cells. -/
  marks : List Pixel
  version : Nat

namespace Grid

def blank (width height : UInt16) (color : UInt8) : Except CanvasError Grid :=
  if width = 0 ∨ height = 0 then .error (.empty width height)
  else if ¬ Palette.Has color then .error (.unknownColor color)
  else .ok ⟨width, height, .replicate (width.toNat * height.toNat) color, [], 0⟩

def ofSnapshot (s : Snapshot) : Except CanvasError Grid :=
  match s.check with
  | .error e => .error e
  | .ok () =>
    match s.pixels.find? fun c => !decide (Palette.Has c) with
    | some c => .error (.unknownColor c)
    | none => .ok ⟨s.width, s.height, s.pixels.toArray, [], 0⟩

def index? (g : Grid) (x y : UInt16) : Option Nat :=
  if x < g.width ∧ y < g.height then some (y.toNat * g.width.toNat + x.toNat) else none

def get? (g : Grid) (x y : UInt16) : Option UInt8 := (g.index? x y).bind fun i => g.cells[i]?

/-- Paints in place: what is written before an error stays written. -/
def paint (p : Pixel) : EStateM CanvasError Grid Unit := do
  let g ← get
  let some i := g.index? p.x p.y | throw (.outside p.x p.y g.width g.height)
  if ¬ Palette.Has p.color then throw (.unknownColor p.color)
  modify fun g => { g with cells := g.cells.setIfInBounds i p.color }
  modify fun g => { g with marks := Pixel.mark false p g.marks }
  modify fun g => { g with version := g.version + 1 }

def paintAll (g : Grid) : List Pixel → Grid × Nat × List CanvasError
  | [] => (g, 0, [])
  | p :: ps =>
    match (paint p).run g with
    | .ok () g =>
      let (g, painted, refused) := g.paintAll ps
      (g, painted + 1, refused)
    | .error e g =>
      let (g, painted, refused) := g.paintAll ps
      (g, painted, e :: refused)

def drain (g : Grid) : Grid × List Pixel := ({ g with marks := [] }, g.marks)

def restoreOne (g : Grid) (p : Pixel) : Grid :=
  if (g.index? p.x p.y).isSome then { g with marks := Pixel.mark true p g.marks } else g

def restore (g : Grid) (ps : List Pixel) : Grid := ps.foldl restoreOne g

def snapshot (g : Grid) : Snapshot := ⟨g.width, g.height, g.cells.toList⟩

def of (c : Canvas) : Grid := ⟨c.width, c.height, c.cells, c.announcements, c.version⟩

variable {c d : Canvas} {p : Pixel}

theorem index?_of (c : Canvas) (x y : UInt16) :
    (of c).index? x y = if c.Holds x y then some (c.index x y) else none := rfl

theorem get?_of (c : Canvas) (x y : UInt16) : (of c).get? x y = c.get? x y := by
  rw [get?, index?_of, Canvas.get?]
  split <;> rfl

theorem announcements_of_painted (h : c.Painted d p) :
    d.announcements = Pixel.mark false p c.announcements := by
  have hc := c.before_announcements
  apply Pixel.eq_of_lastAt d.before_announcements (Pixel.pairwise_mark false p hc)
  intro x y
  rw [Canvas.lastAt_announcements, Canvas.pendingAt_set h.width h.height h.holds h.pending]
  by_cases he : x = p.x ∧ y = p.y
  · obtain ⟨rfl, rfl⟩ := he
    rw [if_pos ⟨rfl, rfl⟩, Pixel.lastAt_mark_self false p hc, if_neg Bool.false_ne_true]
  · rw [if_neg he, Pixel.lastAt_mark_of_ne false he, Canvas.lastAt_announcements]

theorem announcements_restoreOne (h : c.Holds p.x p.y) :
    (c.restoreOne p).announcements = Pixel.mark true p c.announcements := by
  have hc := c.before_announcements
  apply Pixel.eq_of_lastAt (Canvas.before_announcements _) (Pixel.pairwise_mark true p hc)
  intro x y
  rw [Canvas.lastAt_announcements, Canvas.pendingAt_restoreOne h, ← Canvas.lastAt_announcements]
  by_cases he : x = p.x ∧ y = p.y
  · obtain ⟨rfl, rfl⟩ := he
    rw [if_pos ⟨rfl, rfl⟩, Pixel.lastAt_mark_self true p hc, if_pos rfl]
  · rw [if_neg he, Pixel.lastAt_mark_of_ne true he, Option.or_none]

theorem of_eq {s : Snapshot} (h : c.IsUntouched) (hs : c.snapshot = s) :
    of c = ⟨s.width, s.height, s.pixels.toArray, [], 0⟩ := by
  rw [← hs, of, h.announcements_eq_nil, h.version]
  rfl

theorem blank_eq (width height : UInt16) (color : UInt8) :
    blank width height color = (Canvas.blank width height color).map of := by
  rw [blank]
  by_cases hn : width = 0 ∨ height = 0
  · rw [if_pos hn, Canvas.blank, dif_pos hn]
    rfl
  · rw [if_neg hn]
    by_cases hc : Palette.Has color
    · obtain ⟨hw, hh⟩ := not_or.1 hn
      obtain ⟨c, hb, hs, hu⟩ := Canvas.exists_blank hw hh hc
      rw [if_neg (not_not_intro hc), hb, Except.map, of_eq hu hs, Snapshot.plain,
        List.toArray_replicate]
    · rw [if_pos hc, Canvas.blank, dif_neg hn, dif_neg hc]
      rfl

theorem ofSnapshot_eq (s : Snapshot) : ofSnapshot s = (Canvas.ofSnapshot s).map of := by
  rw [ofSnapshot]
  cases hs : s.check with
  | error e =>
    rw [Canvas.ofSnapshot_of_check hs]
    rfl
  | ok _ =>
    change (match s.unknownColor? with | some c => _ | none => _) = _
    cases hc : s.unknownColor? with
    | none =>
      obtain ⟨c, ho, hcs, hu⟩ := Canvas.exists_ofSnapshot hs hc
      rw [ho, Except.map, of_eq hu hcs]
    | some color =>
      rw [Canvas.ofSnapshot_of_unknownColor hs hc]
      rfl

/-- Errors come before anything is written. -/
theorem run_paint (c : Canvas) (p : Pixel) : (paint p).run (of c) =
    match c.paint p with
    | .ok d => .ok () (of d)
    | .error e => .error e (of c) := by
  by_cases hh : c.Holds p.x p.y
  · have hi : (of c).index? p.x p.y = some (c.index p.x p.y) := if_pos hh
    by_cases hc : Palette.Has p.color
    · obtain ⟨d, hd⟩ := Canvas.exists_paint_of_accepts (c := c) ⟨hh, hc⟩
      have hp := Canvas.painted_of_paint hd
      have hg : (paint p).run (of c) = .ok () { of c with
          cells := (of c).cells.setIfInBounds (c.index p.x p.y) p.color
          marks := Pixel.mark false p (of c).marks
          version := (of c).version + 1 } := by
        simp [paint, hi, hc]
      rw [hg, hd]
      simp only [of, hp.width, hp.height, hp.cells, hp.version, announcements_of_painted hp]
    · have hg : (paint p).run (of c) = .error (.unknownColor p.color) (of c) := by
        simp [paint, hi, hc]
      rw [hg, Canvas.paint, if_neg (not_not_intro hh), dif_neg hc]
  · have hi : (of c).index? p.x p.y = none := if_neg hh
    have hg : (paint p).run (of c) = .error (.outside p.x p.y c.width c.height) (of c) := by
      simp [paint, hi]
      exact ⟨rfl, rfl⟩
    rw [hg, Canvas.paint, if_pos hh]

def tally (s : Canvas × Nat × Array CanvasError) (p : Pixel) : Canvas × Nat × Array CanvasError :=
  match s.1.paint p with
  | .ok d => (d, s.2.1 + 1, s.2.2)
  | .error e => (s.1, s.2.1, s.2.2.push e)

theorem paintAll_of_tally (c : Canvas) (painted : Nat) (refused : Array CanvasError)
    (ps : List Pixel) :
    let result := ps.foldl tally (c, painted, refused)
    ∃ n es, (of c).paintAll ps = (of result.1, n, es) ∧ result.2.1 = painted + n ∧
      result.2.2.toList = refused.toList ++ es := by
  induction ps generalizing c painted refused with
  | nil => exact ⟨0, [], rfl, rfl, (List.append_nil _).symm⟩
  | cons p ps ih =>
    rw [List.foldl_cons, paintAll, run_paint, tally]
    dsimp only
    cases c.paint p with
    | ok d =>
      obtain ⟨n, es, hg, hn, he⟩ := ih d (painted + 1) refused
      refine ⟨n + 1, es, by simp only [hg], ?_, he⟩
      rw [hn]
      omega
    | error e =>
      obtain ⟨n, es, hg, hn, he⟩ := ih c painted (refused.push e)
      refine ⟨n, e :: es, by simp only [hg], hn, ?_⟩
      rw [he, Array.toList_push, List.append_assoc]
      rfl

/-- A batch is painted one pixel after another. -/
theorem paintAll_of (c : Canvas) (ps : List Pixel) :
    (of c).paintAll ps = (of (c.paintAll ps).1, (c.paintAll ps).2) := by
  obtain ⟨n, es, hg, hn, he⟩ := paintAll_of_tally c 0 #[] ps
  have hc : c.paintAll ps = ((ps.foldl tally (c, 0, #[])).1, (ps.foldl tally (c, 0, #[])).2.1,
    (ps.foldl tally (c, 0, #[])).2.2.toList) := rfl
  rw [hg, hc, hn, he, Nat.zero_add]
  rfl

theorem drain_of (c : Canvas) : (of c).drain = (of c.drain.1, c.drain.2) := by
  have h : c.drain.1.announcements = [] := by
    rw [List.eq_nil_iff_forall_not_mem]
    intro p hp
    rw [Canvas.mem_announcements, Canvas.pendingAt_drain] at hp
    cases hp
  rw [drain, of, of, h]
  rfl

theorem restoreOne_of (c : Canvas) (p : Pixel) : (of c).restoreOne p = of (c.restoreOne p) := by
  obtain ⟨hw, hh, hc, hv⟩ : (c.restoreOne p).width = c.width ∧ (c.restoreOne p).height = c.height ∧
    (c.restoreOne p).cells = c.cells ∧ (c.restoreOne p).version = c.version := c.restore_eq [p]
  rw [restoreOne, index?_of]
  by_cases hp : c.Holds p.x p.y
  · rw [if_pos hp, Option.isSome_some, if_pos rfl]
    simp only [of, hw, hh, hc, hv, announcements_restoreOne hp]
  · have hn : c.restoreOne p = c := if_neg fun h => hp h.1
    rw [if_neg hp, hn]
    rfl

theorem restore_of (c : Canvas) (ps : List Pixel) : (of c).restore ps = of (c.restore ps) :=
  List.foldl_hom of fun c p => restoreOne_of c p

theorem snapshot_of (c : Canvas) : (of c).snapshot = c.snapshot := rfl

end Grid
end SharedCanvas
