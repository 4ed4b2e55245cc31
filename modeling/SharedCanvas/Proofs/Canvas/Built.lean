import SharedCanvas.Proofs.Canvas.Overlay

namespace SharedCanvas

namespace Snapshot

def plain (width height : UInt16) (color : UInt8) : Snapshot :=
  ⟨width, height, .replicate (width.toNat * height.toNat) color⟩

def unknownColor? (s : Snapshot) : Option UInt8 := s.pixels.find? fun c => !decide (Palette.Has c)

theorem unknownColor?_eq_none {s : Snapshot} :
    s.unknownColor? = none ↔ ∀ c ∈ s.pixels, Palette.Has c := by
  simp [unknownColor?]

end Snapshot

namespace Canvas

/-- Nothing has been painted yet. -/
structure IsUntouched (c : Canvas) : Prop where
  version : c.version = 0
  pending : c.pendingCount = 0

theorem IsUntouched.announcements_eq_nil {c : Canvas} (h : c.IsUntouched) :
    c.announcements = [] := by
  rw [announcements, List.filterMap_eq_nil_iff]
  intro i _
  rw [Option.map_eq_none_iff]
  cases hp : c.pending[i]? with
  | none => rfl
  | some color =>
    have hn := Array.countP_eq_zero.1 h.pending color (Array.mem_of_getElem? hp)
    simpa using hn

theorem check_snapshot (c : Canvas) : c.snapshot.check = .ok () :=
  Snapshot.check_eq_ok_iff.2 ⟨c.nonempty.1, c.nonempty.2, c.length_pixels_snapshot⟩

theorem unknownColor?_snapshot (c : Canvas) : c.snapshot.unknownColor? = none :=
  Snapshot.unknownColor?_eq_none.2 fun color hc => c.palette color (Array.mem_def.2 hc)

theorem exists_blank {width height : UInt16} (hw : width ≠ 0) (hh : height ≠ 0) {color : UInt8}
    (hc : Palette.Has color) :
    ∃ c, blank width height color = .ok c ∧ c.snapshot = .plain width height color ∧
      c.IsUntouched := by
  unfold blank
  rw [dif_neg (not_or.2 ⟨hw, hh⟩), dif_pos hc]
  refine ⟨_, rfl, ?_, rfl, ?_⟩
  · simp [Canvas.snapshot, Snapshot.plain]
  · simp [pendingCount, Array.countP_replicate]

theorem exists_ofSnapshot {s : Snapshot} (hs : s.check = .ok ()) (hp : s.unknownColor? = none) :
    ∃ c, ofSnapshot s = .ok c ∧ c.snapshot = s ∧ c.IsUntouched := by
  unfold ofSnapshot
  split
  · simp_all
  · split
    · rename_i hf
      rw [Snapshot.unknownColor?] at hp
      rw [hp] at hf
      simp at hf
    · refine ⟨_, rfl, rfl, rfl, ?_⟩
      simp [pendingCount, Array.countP_replicate]

theorem ofSnapshot_of_check {s : Snapshot} {e : CanvasError} (h : s.check = .error e) :
    ofSnapshot s = .error e := by
  unfold ofSnapshot
  split <;> simp_all

theorem ofSnapshot_of_unknownColor {s : Snapshot} {color : UInt8} (hs : s.check = .ok ())
    (hp : s.unknownColor? = some color) : ofSnapshot s = .error (.unknownColor color) := by
  unfold ofSnapshot
  split
  · simp_all
  · split
    · rename_i hf
      rw [Snapshot.unknownColor?, hf, Option.some.injEq] at hp
      rw [hp]
    · rename_i hf
      rw [Snapshot.unknownColor?, hf] at hp
      simp at hp

end Canvas

end SharedCanvas
