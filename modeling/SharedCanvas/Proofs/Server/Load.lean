import SharedCanvas.Proofs.Canvas.Built
import SharedCanvas.Proofs.Storage.Saved
import SharedCanvas.Server

namespace SharedCanvas

/-- The file of the settings spells a picture with the dimensions of the settings, and with as many
pixels as they call for. -/
def Config.Finds (c : Config) (fs : FileSystem) (s : Snapshot) : Prop :=
  ∃ path content, c.snapshotPath = some path ∧ fs.read (Bytes.ofString path) = .ok content ∧
    Snapshot.ofJson content = .ok s ∧ s.width = c.width ∧ s.height = c.height ∧
      s.pixels.length = s.area

variable {c : Config} {fs : FileSystem} {s : Snapshot}

theorem Config.nonempty_of_check (hc : c.check = .ok ()) : c.width ≠ 0 ∧ c.height ≠ 0 :=
  (Config.check_eq_ok_iff.1 hc).1

theorem Config.Finds.check (h : c.Finds fs s) (hc : c.check = .ok ()) : s.check = .ok () := by
  obtain ⟨path, content, -, -, -, hw, hh, hl⟩ := h
  have hn := Config.nonempty_of_check hc
  exact Snapshot.check_eq_ok_iff.2 ⟨hw ▸ hn.1, hh ▸ hn.2, hl⟩

theorem Config.Finds.unique {t : Snapshot} (h : c.Finds fs t) (h' : c.Finds fs s) : t = s := by
  obtain ⟨p, x, hp, hx, ht, -⟩ := h
  obtain ⟨q, y, hq, hy, hs, -⟩ := h'
  rw [hp, Option.some.injEq] at hq
  rw [hq, hy, Except.ok.injEq] at hx
  rw [← hx, hs, Except.ok.injEq] at ht
  exact ht.symm

theorem SnapshotFile.load_eq_some {f : SnapshotFile} (h : f.load fs = .ok (some s)) :
    ∃ content, fs.read f.path = .ok content ∧ Snapshot.ofJson content = .ok s ∧
      s.check = .ok () := by
  unfold load at h
  split at h
  · simp at h
  · simp at h
  · rename_i content hr
    refine ⟨content, hr, ?_⟩
    unfold decode at h
    split at h
    · simp [Except.map] at h
    · rename_i t ht
      split at h
      · simp [Except.map] at h
      · rename_i hk
        simp only [Except.map, Except.ok.injEq, Option.some.injEq] at h
        rw [← h]
        exact ⟨ht, hk⟩

theorem Config.Finds.load_eq (h : c.Finds fs s) (hc : c.check = .ok ()) :
    loadCanvas c fs = (Canvas.ofSnapshot s).mapError .snapshot := by
  have hk := h.check hc
  obtain ⟨path, content, hp, hr, hj, hw, hh, -⟩ := h
  have hl : (SnapshotFile.mk (Bytes.ofString path)).load fs = .ok (some s) := by
    rw [SnapshotFile.load, hr]
    simp only [SnapshotFile.decode, hj, hk]
    rfl
  rw [loadCanvas, hp]
  dsimp only
  rw [hl]
  exact if_pos ⟨hw, hh⟩

theorem loadCanvas_of_forall_not (h : ∀ s, ¬ c.Finds fs s) :
    loadCanvas c fs = (Canvas.blank c.width c.height Palette.white).mapError .size := by
  unfold loadCanvas
  dsimp only
  split
  · rfl
  · rename_i path hp
    split
    · rename_i s hl
      rw [if_neg]
      rintro ⟨hw, hh⟩
      obtain ⟨content, hr, hj, hk⟩ := SnapshotFile.load_eq_some hl
      exact h s ⟨path, content, hp, hr, hj, hw, hh, (Snapshot.check_eq_ok_iff.1 hk).2.2⟩
    · rfl

/-- The three ways in which a server can begin. -/
theorem loadCanvas_cases (hc : c.check = .ok ()) (fs : FileSystem) :
    (∃ s canvas, c.Finds fs s ∧ s.unknownColor? = none ∧ loadCanvas c fs = .ok canvas ∧
      canvas.snapshot = s ∧ canvas.IsUntouched) ∨
    (∃ s color, c.Finds fs s ∧ s.unknownColor? = some color ∧
      loadCanvas c fs = .error (.snapshot (.unknownColor color))) ∨
    (∀ s, ¬ c.Finds fs s) ∧ ∃ canvas, loadCanvas c fs = .ok canvas ∧
      canvas.snapshot = .plain c.width c.height Palette.white ∧ canvas.IsUntouched := by
  by_cases h : ∃ s, c.Finds fs s
  · obtain ⟨s, hs⟩ := h
    have hk := hs.check hc
    have hl := hs.load_eq hc
    cases hp : s.unknownColor? with
    | none =>
      obtain ⟨canvas, ho, hcs, hu⟩ := Canvas.exists_ofSnapshot hk hp
      rw [ho] at hl
      exact .inl ⟨s, canvas, hs, hp, hl, hcs, hu⟩
    | some color =>
      rw [Canvas.ofSnapshot_of_unknownColor hk hp] at hl
      exact .inr (.inl ⟨s, color, hs, hp, hl⟩)
  · have hn := not_exists.1 h
    have hne := Config.nonempty_of_check hc
    obtain ⟨canvas, hb, hcs, hu⟩ := Canvas.exists_blank hne.1 hne.2 Palette.has_white
    have hl := loadCanvas_of_forall_not hn
    rw [hb] at hl
    exact .inr (.inr ⟨hn, canvas, hl, hcs, hu⟩)

/-- What a server starts with: a canvas of the configured dimensions on which nothing has been
painted yet. -/
theorem of_loadCanvas_eq_ok (hc : c.check = .ok ()) {canvas : Canvas}
    (hl : loadCanvas c fs = .ok canvas) :
    canvas.width = c.width ∧ canvas.height = c.height ∧ canvas.IsUntouched ∧
      (c.Finds fs canvas.snapshot ∨
        (∀ s, ¬ c.Finds fs s) ∧ canvas.snapshot = .plain c.width c.height Palette.white) := by
  rcases loadCanvas_cases hc fs with ⟨s, d, hs, -, hd, hcs, hu⟩ | ⟨_, _, -, -, hd⟩ |
    ⟨hn, d, hd, hcs, hu⟩ <;> rw [hl] at hd
  · rw [Except.ok.injEq] at hd
    subst hd
    obtain ⟨-, -, -, -, -, hw, hh, -⟩ := id hs
    rw [← hcs] at hw hh hs
    exact ⟨hw, hh, hu, .inl hs⟩
  · simp at hd
  · rw [Except.ok.injEq] at hd
    subst hd
    exact ⟨congrArg Snapshot.width hcs, congrArg Snapshot.height hcs, hu, .inr ⟨hn, hcs⟩⟩

theorem Server.start_eq_ok_iff {h : Host} {server : Server} : start h c fs = .ok server ↔
    c.check = .ok () ∧ h.listen c.bindAddress c.port = .ok () ∧ ∃ canvas,
      loadCanvas c fs = .ok canvas ∧ server = {
        config := c
        service := {
          room := .new canvas c.maxClients c.recvBuffer c.outboxLimit
            (c.staticDir.map fun dir => ⟨Bytes.ofString dir, fs⟩)
          lanes := .start c.workers c.queueCapacity }
        files := fs
        saver := c.snapshotPath.map fun path => .start ⟨Bytes.ofString path⟩ canvas
        ticker := none
        looked := false
        nextId := 1 } := by
  constructor
  · intro hs
    obtain ⟨_, hc, hs⟩ := bind_eq_ok_iff.1 hs
    obtain ⟨_, hl, hs⟩ := bind_eq_ok_iff.1 hs
    obtain ⟨canvas, hk, hs⟩ := bind_eq_ok_iff.1 hs
    exact ⟨mapError_eq_ok_iff.1 hc, mapError_eq_ok_iff.1 hl, canvas, hk, (Except.ok.inj hs).symm⟩
  · rintro ⟨hc, hl, canvas, hk, rfl⟩
    refine bind_eq_ok_iff.2 ⟨(), mapError_eq_ok_iff.2 hc, ?_⟩
    refine bind_eq_ok_iff.2 ⟨(), mapError_eq_ok_iff.2 hl, ?_⟩
    exact bind_eq_ok_iff.2 ⟨canvas, hk, rfl⟩

theorem finds_of_write {path : String} {fs' : FileSystem}
    (hw : fs.write (Bytes.ofString path) s.toJson = .ok fs') (hp : c.snapshotPath = some path)
    (hd : s.width = c.width ∧ s.height = c.height) (hl : s.pixels.length = s.area) :
    c.Finds fs' s :=
  ⟨path, s.toJson, hp, FileSystem.read_of_write hw, s.ofJson_toJson, hd.1, hd.2, hl⟩

/-- Loading fails in one case only: the file spells a picture of the right dimensions and the right
size in which some colour is not in the palette. It then tells the first such colour. Otherwise the
canvas has the configured dimensions, and shows the picture of the file, or is blank if the file has
none of that size. -/
theorem loadCanvas_eq_error_iff (hc : c.check = .ok ()) (fs : FileSystem) :
    (∀ e, loadCanvas c fs = .error e ↔ ∃ s color, c.Finds fs s ∧ s.unknownColor? = some color ∧
      e = .snapshot (.unknownColor color)) ∧
    ∀ canvas, loadCanvas c fs = .ok canvas →
      canvas.width = c.width ∧ canvas.height = c.height ∧ canvas.IsUntouched ∧
        (c.Finds fs canvas.snapshot ∨
          (∀ s, ¬ c.Finds fs s) ∧ canvas.snapshot = .plain c.width c.height Palette.white) := by
  refine ⟨fun e => ?_, fun canvas hl => of_loadCanvas_eq_ok hc hl⟩
  rcases loadCanvas_cases hc fs with ⟨s, canvas, hs, hp, hl, -⟩ | ⟨s, color, hs, hp, hl⟩ |
    ⟨hn, canvas, hl, -⟩
  · refine iff_of_false (by rw [hl]; nofun) ?_
    rintro ⟨t, color, ht, hq, -⟩
    rw [ht.unique hs, hp] at hq
    simp at hq
  · rw [hl, Except.error.injEq]
    constructor
    · rintro rfl
      exact ⟨s, color, hs, hp, rfl⟩
    · rintro ⟨t, color', ht, hq, rfl⟩
      rw [ht.unique hs, hp, Option.some.injEq] at hq
      rw [hq]
  · refine iff_of_false (by rw [hl]; nofun) ?_
    rintro ⟨t, -, ht, -⟩
    exact hn t ht

/-- Of two colours that are not in the palette the first is told; a good file is shown. -/
theorem loadCanvas_eq_error_iff_three_cells : ∃ c : Config, c.check = .ok () ∧
    (∃ fs, loadCanvas c fs = .error (.snapshot (.unknownColor 200))) ∧
    ∃ fs canvas, loadCanvas c fs = .ok canvas ∧ canvas.width = 3 ∧ canvas.height = 1 ∧
      c.Finds fs canvas.snapshot := by
  let c : Config := { Config.standard with width := 3, height := 1, snapshotPath := some "/c.json" }
  let bad : Snapshot := ⟨3, 1, [7, 200, 99]⟩
  let good : Snapshot := ⟨3, 1, [7, 0, 29]⟩
  have hc : c.check = .ok () := rfl
  obtain ⟨fs, hw⟩ : ∃ fs, FileSystem.empty.write (Bytes.ofString "/c.json") bad.toJson = .ok fs :=
    ⟨_, rfl⟩
  obtain ⟨fs', hw'⟩ :
      ∃ fs, FileSystem.empty.write (Bytes.ofString "/c.json") good.toJson = .ok fs :=
    ⟨_, rfl⟩
  have hs : c.Finds fs bad := finds_of_write hw rfl ⟨rfl, rfl⟩ rfl
  have hs' : c.Finds fs' good := finds_of_write hw' rfl ⟨rfl, rfl⟩ rfl
  refine ⟨c, hc, ⟨fs, ?_⟩, fs', ?_⟩
  · exact ((loadCanvas_eq_error_iff hc fs).1 _).2 ⟨bad, 200, hs, rfl, rfl⟩
  · obtain ⟨canvas, hl⟩ : ∃ canvas, loadCanvas c fs' = .ok canvas := by
      rw [hs'.load_eq hc]
      exact ⟨_, rfl⟩
    obtain ⟨hw, hh, -, hp⟩ := (loadCanvas_eq_error_iff hc fs').2 canvas hl
    exact ⟨canvas, hl, hw, hh, hp.resolve_right fun hn => hn.1 good hs'⟩

/-- A server whose settings are in order does not start, because its file has a colour that is not
in the palette. -/
theorem unknown_color_stops_start : ∃ c : Config, c.check = .ok () ∧ ∃ fs,
    c.Finds fs ⟨2, 1, [29, 200]⟩ ∧
    loadCanvas c fs = .error (.snapshot (.unknownColor 200)) ∧
    ∀ host : Host, host.listen c.bindAddress c.port = .ok () → ∀ server,
      Server.start host c fs ≠ .ok server := by
  let c : Config := { Config.standard with width := 2, height := 1, snapshotPath := some "/c.json" }
  let s : Snapshot := ⟨2, 1, [29, 200]⟩
  have hc : c.check = .ok () := rfl
  obtain ⟨fs, hw⟩ : ∃ fs, FileSystem.empty.write (Bytes.ofString "/c.json") s.toJson = .ok fs :=
    ⟨_, rfl⟩
  have hs : c.Finds fs s := finds_of_write hw rfl ⟨rfl, rfl⟩ rfl
  have hl : loadCanvas c fs = .error (.snapshot (.unknownColor 200)) := by
    rw [hs.load_eq hc, Canvas.ofSnapshot_of_unknownColor (hs.check hc) rfl]
    rfl
  refine ⟨c, hc, fs, hs, hl, ?_⟩
  intro host hh server
  rw [Server.start, hc, hh, hl]
  nofun

end SharedCanvas
