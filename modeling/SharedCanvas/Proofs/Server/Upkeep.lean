import SharedCanvas.Proofs.Canvas.Accepted
import SharedCanvas.Proofs.Canvas.Overlay
import SharedCanvas.Proofs.Server.Load

namespace SharedCanvas
open Pixel (lastAt)

namespace Saver

theorem stage_note (v : Saver) (c : Canvas) :
    (v.note c).stage = .waiting ↔ v.stage = .waiting ∧ c.version = v.savedVersion := by
  unfold note
  split
  · split <;> simp [*]
  · rename_i hne
    exact ⟨fun hw => absurd hw hne, fun hw => absurd hw.1 hne⟩

end Saver

/-- The saving loop of a server, from its start on. -/
structure Upkeep where
  file : SnapshotFile
  canvas : Canvas
  files : FileSystem
  /-- What the loop knows, from its first look at the canvas on. -/
  saver : Option Saver
  /-- The pixels that were painted since the start, oldest first. -/
  painted : List Pixel
  /-- The number of those that were painted before the first look. -/
  early : Nat

namespace Upkeep

def start? (server : Server) : Option Upkeep :=
  server.saver.map fun saver => ⟨saver.file, server.canvas, server.files, none, [], 0⟩

def finish (s : Upkeep) (v : Saver) : Upkeep :=
  { s with saver := some (v.finish s.files).1, files := (v.finish s.files).2.1 }

/-- The loop goes on by one step, or something else happens. A save may fail for any reason, and
leave anything behind; other programs leave the file alone, and a draft that is to be moved. -/
inductive Step : Upkeep → Upkeep → Prop
  | paint (s : Upkeep) (p : Pixel) (canvas : Canvas) (h : s.canvas.paint p = .ok canvas) :
    Step s { s with canvas, painted := s.painted ++ [p] }
  | drain (s : Upkeep) : Step s { s with canvas := s.canvas.drain.1 }
  | restore (s : Upkeep) (ps : List Pixel) : Step s { s with canvas := s.canvas.restore ps }
  | look (s : Upkeep) (h : s.saver = none) :
    Step s { s with saver := some (.start s.file s.canvas), early := s.painted.length }
  | note (s : Upkeep) (v : Saver) (h : s.saver = some v) (hw : v.stage = .waiting) :
    Step s { s with saver := some (v.note s.canvas) }
  | copy (s : Upkeep) (v : Saver) (h : s.saver = some v) :
    Step s { s with saver := some (v.copy s.canvas) }
  | draft (s : Upkeep) (v : Saver) (h : s.saver = some v) :
    Step s { s with saver := some (v.draft s.files).1, files := (v.draft s.files).2.1 }
  | publish (s : Upkeep) (v : Saver) (h : s.saver = some v) :
    Step s { s with saver := some (v.publish s.files).1, files := (v.publish s.files).2.1 }
  | fail (s : Upkeep) (v : Saver) (h : s.saver = some v) (hw : v.stage ≠ .waiting)
    (files : FileSystem) : Step s { s with saver := some { v with stage := .waiting }, files }
  | others (s : Upkeep) (files : FileSystem)
    (h : files.read s.file.path = s.files.read s.file.path)
    (hd : ∀ v n cells, s.saver = some v → v.stage = .drafted n cells →
      files.read s.file.draftPath = s.files.read s.file.draftPath) : Step s { s with files }

/-- Any number of steps, in any order. -/
inductive Run : Upkeep → Upkeep → Prop
  | refl (s : Upkeep) : Run s s
  | step {s t u : Upkeep} (h : Run s t) (ht : Step t u) : Run s u

/-- The file shows each of the first `n` pixels, or what was painted over it since. -/
def Contains (s : Upkeep) (n : Nat) : Prop :=
  ∃ picture, s.file.load s.files = .ok (some picture) ∧ ∃ m, n ≤ m ∧
    ∀ p ∈ s.painted.take n, picture.get? p.x p.y = lastAt p.x p.y (s.painted.take m)

/-- The picture is that of the canvas after the first `n` pixels, or of a later one. -/
def IsLater (s : Upkeep) (origin : Canvas) (n : Nat) (picture : Snapshot) : Prop :=
  ∃ (d : Canvas) (m : Nat), n ≤ m ∧ m ≤ s.painted.length ∧ picture = d.snapshot ∧
    origin.Follows d (s.painted.take m)

/-- The file is as it was when nothing had been saved, or a picture was saved since that shows all
that counts as saved. -/
def Stored (origin : Canvas) (found : FileSystem) (s : Upkeep) (saved : Nat) : Prop :=
  saved = s.early ∧ s.files.read s.file.path = found.read s.file.path ∨
  s.early < saved ∧ ∃ picture, s.file.load s.files = .ok (some picture) ∧
    s.IsLater origin saved picture

/-- A save is on its way for something that does not count as saved yet. -/
def Awaits (origin : Canvas) (s : Upkeep) (saved : Nat) : SaveStage → Prop
  | .waiting => True
  | .noted n => saved < n ∧ n ≤ s.painted.length
  | .copied n picture => saved < n ∧ s.IsLater origin n picture
  | .drafted n _ => saved < n ∧ ∃ picture, s.IsLater origin n picture ∧
    s.files.read s.file.draftPath = .ok picture.toJson

/-- What the loop knows is so, if the server found `found` and showed `origin` at its start. A save
that failed may have spoilt the file, but then something is painted that does not count as saved. -/
structure Knows (origin : Canvas) (found : FileSystem) (s : Upkeep) (v : Saver) : Prop where
  file : v.file = s.file
  early : s.early ≤ v.savedVersion
  saved : v.savedVersion ≤ s.painted.length
  stored : v.savedVersion = s.painted.length → s.Stored origin found v.savedVersion
  stage : s.Awaits origin v.savedVersion v.stage

structure Sound (origin : Canvas) (found : FileSystem) (s : Upkeep) : Prop where
  follows : origin.Follows s.canvas s.painted
  version : s.canvas.version = s.painted.length
  unseen : s.saver = none → s.files.read s.file.path = found.read s.file.path
  seen : ∀ v, s.saver = some v → s.Knows origin found v

variable {origin : Canvas} {found : FileSystem} {s t : Upkeep} {v : Saver} {n : Nat}
  {picture : Snapshot}

theorem Run.finish (h : Run s t) (hv : t.saver = some v) : Run s (t.finish v) :=
  (h.step (.draft t v hv)).step (.publish _ _ rfl)

theorem IsLater.le (h : s.IsLater origin n picture) : n ≤ s.painted.length := by
  obtain ⟨_, m, hn, hm, -⟩ := h
  exact Nat.le_trans hn hm

theorem IsLater.append (h : s.IsLater origin n picture) {ps : List Pixel}
    (hp : t.painted = s.painted ++ ps) : t.IsLater origin n picture := by
  obtain ⟨d, m, hn, hm, hd, hf⟩ := h
  refine ⟨d, m, hn, ?_, hd, ?_⟩
  · rw [hp, List.length_append]
    exact Nat.le_add_right_of_le hm
  · rwa [hp, List.take_append_of_le_length hm]

theorem IsLater.check (h : s.IsLater origin n picture) : picture.check = .ok () := by
  obtain ⟨d, _, -, -, rfl, -⟩ := h
  exact d.check_snapshot

theorem IsLater.contains (h : s.IsLater origin n picture)
    (hl : s.file.load s.files = .ok (some picture)) : s.Contains n := by
  obtain ⟨d, m, hn, -, rfl, hf⟩ := h
  refine ⟨_, hl, m, hn, fun p hp => ?_⟩
  have hm : p ∈ s.painted.take m := (List.take_subset_take_left _ hn) hp
  rw [Snapshot.get?_snapshot, hf.shown, Option.or_of_isSome (Pixel.isSome_lastAt hm)]

theorem Awaits.lt {saved : Nat} {stage : SaveStage} (h : s.Awaits origin saved stage)
    (hw : stage ≠ .waiting) : saved < s.painted.length := by
  cases stage with
  | waiting => exact absurd rfl hw
  | noted n => exact Nat.lt_of_lt_of_le h.1 h.2
  | copied n picture => exact Nat.lt_of_lt_of_le h.1 h.2.le
  | drafted n cells =>
    obtain ⟨hlt, picture, hp, -⟩ := h
    exact Nat.lt_of_lt_of_le hlt hp.le

theorem Awaits.append {saved : Nat} {stage : SaveStage} (h : s.Awaits origin saved stage)
    {ps : List Pixel} (hp : t.painted = s.painted ++ ps) (hd : ∀ n cells, stage = .drafted n cells →
      t.files.read t.file.draftPath = s.files.read s.file.draftPath) :
    t.Awaits origin saved stage := by
  cases stage with
  | waiting => trivial
  | noted n =>
    refine ⟨h.1, ?_⟩
    rw [hp, List.length_append]
    exact Nat.le_add_right_of_le h.2
  | copied n picture => exact ⟨h.1, h.2.append hp⟩
  | drafted n cells =>
    obtain ⟨hlt, picture, hpic, hr⟩ := h
    exact ⟨hlt, picture, hpic.append hp, (hd n cells rfl).trans hr⟩

theorem load_congr {f : SnapshotFile} {fs fs' : FileSystem} (h : fs'.read f.path = fs.read f.path) :
    f.load fs' = f.load fs := by
  rw [SnapshotFile.load, SnapshotFile.load, h]

theorem Knows.congr (h : s.Knows origin found v) (hp : t.painted = s.painted)
    (he : t.early = s.early) (hf : t.file = s.file)
    (hr : t.files.read s.file.path = s.files.read s.file.path)
    (hd : ∀ n cells, v.stage = .drafted n cells →
      t.files.read s.file.draftPath = s.files.read s.file.draftPath) :
    t.Knows origin found v := by
  have hnil : t.painted = s.painted ++ [] := hp.trans (List.append_nil _).symm
  refine ⟨h.file.trans hf.symm, he ▸ h.early, hp ▸ h.saved, fun hv => ?_,
    h.stage.append hnil (hf ▸ hd)⟩
  rcases h.stored (hv.trans (congrArg _ hp)) with ⟨hs, ho⟩ | ⟨hlt, picture, hl, hpic⟩
  · exact .inl ⟨hs.trans he.symm, by rw [hf, hr, ho]⟩
  · exact .inr ⟨he ▸ hlt, picture, by rw [hf, load_congr hr, hl], hpic.append hnil⟩

theorem Knows.of_files (h : s.Knows origin found v) (hp : t.painted = s.painted)
    (he : t.early = s.early) (hf : t.file = s.file) (hfs : t.files = s.files) :
    t.Knows origin found v :=
  h.congr hp he hf (by rw [hfs]) fun _ _ _ => by rw [hfs]

theorem Knows.withStage (h : s.Knows origin found v) {stage : SaveStage}
    (hs : s.Awaits origin v.savedVersion stage) : s.Knows origin found { v with stage } :=
  ⟨h.file, h.early, h.saved, h.stored, hs⟩

theorem Knows.copied (h : s.Knows origin found v) (hc : v.stage = .copied n picture) :
    v.savedVersion < n ∧ s.IsLater origin n picture := by
  have hs := h.stage
  rwa [hc] at hs

theorem Knows.drafted {cells : Nat} (h : s.Knows origin found v)
    (hc : v.stage = .drafted n cells) : v.savedVersion < n ∧ ∃ picture,
      s.IsLater origin n picture ∧ s.files.read s.file.draftPath = .ok picture.toJson := by
  have hs := h.stage
  rwa [hc] at hs

/-- As long as something that is painted does not count as saved, nothing is said of the file. -/
theorem Knows.of_lt (h : s.Knows origin found v) (stage : SaveStage)
    (hlt : v.savedVersion < t.painted.length) (he : t.early = s.early) (hf : t.file = s.file)
    (hs : t.Awaits origin v.savedVersion stage) : t.Knows origin found { v with stage } :=
  ⟨h.file.trans hf.symm, he ▸ h.early, Nat.le_of_lt hlt, fun hv => absurd hv (Nat.ne_of_lt hlt), hs⟩

theorem Knows.failed (h : s.Knows origin found v) (hw : v.stage ≠ .waiting)
    (hp : t.painted = s.painted) (he : t.early = s.early) (hf : t.file = s.file) :
    t.Knows origin found { v with stage := .waiting } :=
  h.of_lt .waiting (hp ▸ h.stage.lt hw) he hf trivial

theorem Knows.paint (h : s.Knows origin found v) {p : Pixel} (hp : t.painted = s.painted ++ [p])
    (he : t.early = s.early) (hf : t.file = s.file) (hfs : t.files = s.files) :
    t.Knows origin found v := by
  refine h.of_lt v.stage ?_ he hf (h.stage.append hp fun _ _ _ => by rw [hfs, hf])
  rw [hp, List.length_append, List.length_singleton]
  exact Nat.lt_succ_of_le h.saved

theorem Sound.look (h : s.Sound origin found) (hn : s.saver = none) :
    { s with saver := some (.start s.file s.canvas), early := s.painted.length : Upkeep }.Knows
      origin found (.start s.file s.canvas) :=
  ⟨rfl, Nat.le_of_eq h.version.symm, Nat.le_of_eq h.version,
    fun _ => .inl ⟨h.version, h.unseen hn⟩, trivial⟩

theorem Sound.note (h : s.Sound origin found) (hk : s.Knows origin found v) :
    s.Knows origin found (v.note s.canvas) := by
  rw [Saver.note]
  split
  · split
    · exact hk
    · rename_i hne
      have hlt : v.savedVersion < s.canvas.version :=
        Nat.lt_of_le_of_ne (h.version ▸ hk.saved) (Ne.symm hne)
      exact hk.withStage ⟨hlt, Nat.le_of_eq h.version⟩
  · exact hk

theorem Sound.copy (h : s.Sound origin found) (hk : s.Knows origin found v) :
    s.Knows origin found (v.copy s.canvas) := by
  rw [Saver.copy]
  split
  · rename_i n hst
    have hs := hk.stage
    rw [hst] at hs
    -- The copy comes after the look at the version, so it may show more than that, but not less.
    refine hk.withStage ⟨hs.1, s.canvas, s.painted.length, hs.2, Nat.le_refl _, rfl, ?_⟩
    rw [List.take_length]
    exact h.follows
  · exact hk

theorem Knows.draft (h : s.Knows origin found v) (saver : Option Saver) :
    { s with saver, files := (v.draft s.files).2.1 : Upkeep }.Knows origin found
      (v.draft s.files).1 := by
  unfold Saver.draft
  split
  · rename_i n picture hst
    have hlt := h.stage.lt (by rw [hst]; nofun)
    cases hw : v.file.writeDraft picture s.files with
    | error e => exact h.failed (by rw [hst]; nofun) rfl rfl rfl
    | ok files =>
      have hr : files.read s.file.draftPath = .ok picture.toJson :=
        FileSystem.read_of_write (mapError_eq_ok_iff.1 (h.file ▸ hw))
      obtain ⟨hn, hp⟩ := h.copied hst
      exact h.of_lt _ hlt rfl rfl ⟨hn, picture, hp, hr⟩
  · exact h.of_files rfl rfl rfl rfl

theorem Knows.publish (h : s.Knows origin found v) (saver : Option Saver) :
    { s with saver, files := (v.publish s.files).2.1 : Upkeep }.Knows origin found
      (v.publish s.files).1 := by
  unfold Saver.publish
  split
  · rename_i n cells hst
    cases hw : v.file.publish s.files with
    | error e => exact h.failed (by rw [hst]; nofun) rfl rfl rfl
    | ok files =>
      -- From now on the file is not as it was found, because more is saved than at the first look.
      obtain ⟨hlt, picture, hp, hr⟩ := h.drafted hst
      have he : s.early < n := Nat.lt_of_le_of_lt h.early hlt
      have hl := SnapshotFile.load_of_publish hp.check hr (h.file ▸ hw)
      exact ⟨h.file, Nat.le_of_lt he, hp.le, fun _ => .inr ⟨he, picture, hl, hp⟩, trivial⟩
  · exact h.of_files rfl rfl rfl rfl

/-- A save that succeeds leaves the picture that was copied, so what had been painted when the
period began is in the file. -/
theorem Knows.contains_finish (h : s.Knows origin found v) (hst : v.stage = .copied n picture)
    (hs : (v.file.save picture s.files).2 = .ok ()) : (s.finish v).Contains n := by
  have hp := (h.copied hst).2
  have hlater : (s.finish v).IsLater origin n picture := hp
  refine hlater.contains ?_
  change s.file.load (v.finish s.files).2.1 = _
  rw [Saver.finish_of_copied hst, ← h.file]
  exact SnapshotFile.load_of_save hp.check (Prod.ext rfl hs)

theorem Sound.of_saver (h : s.Sound origin found) (hc : t.canvas = s.canvas)
    (hp : t.painted = s.painted) (hv : t.saver = some v) (hk : t.Knows origin found v) :
    t.Sound origin found := by
  refine ⟨?_, ?_, fun hn => ?_, fun w hw => ?_⟩
  · rw [hc, hp]
    exact h.follows
  · rw [hc, hp, h.version]
  · rw [hv] at hn
    cases hn
  · obtain rfl := Option.some.inj (hv.symm.trans hw)
    exact hk

theorem Step.sound (hst : Step s t) (h : s.Sound origin found) : t.Sound origin found := by
  cases hst with
  | paint p canvas hp =>
    have hpd := Canvas.painted_of_paint hp
    refine ⟨h.follows.trans hpd.covered.toFollows, ?_, h.unseen, fun v hv => ?_⟩
    · rw [hpd.version, h.version, List.length_append, List.length_singleton]
    · exact (h.seen v hv).paint rfl rfl rfl rfl
  | drain =>
    exact ⟨h.follows.of_cells rfl rfl rfl rfl, h.version, h.unseen,
      fun v hv => (h.seen v hv).of_files rfl rfl rfl rfl⟩
  | restore ps =>
    obtain ⟨hw, hh, hc, hv⟩ := s.canvas.restore_eq ps
    exact ⟨h.follows.of_cells hw hh hc hv, hv.trans h.version, h.unseen,
      fun v hv => (h.seen v hv).of_files rfl rfl rfl rfl⟩
  | look hn => exact h.of_saver rfl rfl rfl (h.look hn)
  | note v hv hw =>
    exact h.of_saver rfl rfl rfl ((h.note (h.seen v hv)).of_files rfl rfl rfl rfl)
  | copy v hv =>
    exact h.of_saver rfl rfl rfl ((h.copy (h.seen v hv)).of_files rfl rfl rfl rfl)
  | draft v hv => exact h.of_saver rfl rfl rfl ((h.seen v hv).draft _)
  | publish v hv => exact h.of_saver rfl rfl rfl ((h.seen v hv).publish _)
  | fail v hv hw files => exact h.of_saver rfl rfl rfl ((h.seen v hv).failed hw rfl rfl rfl)
  | others files hr hd =>
    refine ⟨h.follows, h.version, fun hn => hr.trans (h.unseen hn), fun v hv => ?_⟩
    exact (h.seen v hv).congr rfl rfl rfl hr (hd v · · hv)

theorem Run.sound (hr : Run s t) (h : s.Sound origin found) : t.Sound origin found := by
  induction hr with
  | refl => exact h
  | step _ ht ih => exact ht.sound ih

theorem sound_of_start {host : Host} {c : Config} {server : Server}
    (hs : Server.start host c found = .ok server) (h : start? server = some s) :
    s.Sound server.canvas found := by
  obtain ⟨hc, -, canvas, hl, rfl⟩ := Server.start_eq_ok_iff.1 hs
  obtain ⟨-, -, hu, -⟩ := of_loadCanvas_eq_ok hc hl
  obtain ⟨saver, -, rfl⟩ := Option.map_eq_some_iff.1 h
  exact ⟨.refl _, hu.version, fun _ => rfl, nofun⟩

/-- Whenever a save succeeds, the file shows all that had been painted when the period began. When a
period is skipped, the file shows all that was painted since the server was started if any of it was
painted after the first look; otherwise the file is as the server found it. -/
theorem contains_of_run {host : Host} {c : Config} {fs : FileSystem} {server : Server}
    (hs : Server.start host c fs = .ok server) (h : start? server = some s) (hr : Run s t) :
    t.canvas.version = t.painted.length ∧ ∀ v, t.saver = some v →
      (∀ n picture, v.stage = .copied n picture → (v.file.save picture t.files).2 = .ok () →
        (t.finish v).Contains n) ∧
      ((v.note t.canvas).stage = .waiting →
        (t.early < t.painted.length → t.Contains t.painted.length) ∧
        (t.early = t.painted.length → t.file.load t.files = t.file.load fs)) := by
  have ht := hr.sound (sound_of_start hs h)
  refine ⟨ht.version, fun v hv => ⟨fun n picture hst hok => ?_, fun hn => ?_⟩⟩
  · exact (ht.seen v hv).contains_finish hst hok
  · have hver : v.savedVersion = t.painted.length :=
      ((v.stage_note t.canvas).1 hn).2.symm.trans ht.version
    rcases (ht.seen v hv).stored hver with ⟨he, ho⟩ | ⟨hlt, picture, hl, hp⟩
    · rw [hver] at he
      exact ⟨fun hlt => absurd he.symm (Nat.ne_of_lt hlt), fun _ => load_congr ho⟩
    · rw [hver] at hlt hp
      exact ⟨fun _ => hp.contains hl, fun he => absurd he (Nat.ne_of_lt hlt)⟩

/-- One pixel is painted after the first look. The next save puts it in the file, and the period
after that is skipped. -/
theorem contains_of_run_one_pixel : ∃ (c : Config) (server : Server) (s t : Upkeep) (v w : Saver),
    Server.start .unprivileged c .empty = .ok server ∧ start? server = some s ∧ Run s t ∧
      t.saver = some v ∧ (t.finish v).Contains 1 ∧
      Run s (t.finish v) ∧ (t.finish v).saver = some w ∧
      (w.note (t.finish v).canvas).stage = .waiting ∧
      (t.finish v).Contains (t.finish v).painted.length := by
  let c : Config := { Config.standard with width := 2, height := 1, snapshotPath := some "/c.json" }
  let blank : Canvas := ⟨2, 1, #[29, 29], #[none, none], 0, rfl, rfl,
    by simp [show Palette.Has 29 by decide], by decide⟩
  let dotted : Canvas := ⟨2, 1, #[5, 29], #[some 5, none], 1, rfl, rfl,
    by simp [show Palette.Has 5 by decide, show Palette.Has 29 by decide], by decide⟩
  let file : SnapshotFile := ⟨Bytes.ofString "/c.json"⟩
  have hl : loadCanvas c .empty = .ok blank := rfl
  have hs := Server.start_eq_ok_iff (h := .unprivileged).2 ⟨rfl, rfl, blank, hl, rfl⟩
  have hp : blank.paint ⟨0, 0, 5⟩ = .ok dotted := rfl
  let v : Saver := ((Saver.start file blank).note dotted).copy dotted
  let s : Upkeep := ⟨file, blank, .empty, none, [], 0⟩
  let t : Upkeep := ⟨file, dotted, .empty, some v, [⟨0, 0, 5⟩], 0⟩
  have hr : Run s t := ((((Run.refl s).step (.look _ rfl)).step (.paint _ _ dotted hp)).step
    (.note _ _ rfl rfl)).step (.copy _ _ rfl)
  have hf : Run s (t.finish v) := hr.finish rfl
  have hok : (v.file.save dotted.snapshot t.files).2 = .ok () := by decide +kernel
  have hw : ((v.finish t.files).1.note dotted).stage = .waiting := by decide +kernel
  have hc := ((contains_of_run hs rfl hr).2 v rfl).1 1 dotted.snapshot rfl hok
  have hk := (((contains_of_run hs rfl hf).2 _ rfl).2 hw).1 (by decide)
  exact ⟨c, _, s, t, v, _, hs, rfl, hr, rfl, hc, hf, rfl, hw, hk⟩

/-- A pixel that is painted before the first look. The periods after it are skipped although it is
in no file, and so they are until something else is painted. -/
theorem skipped_before_saved : ∃ (c : Config) (server : Server) (s t : Upkeep) (v : Saver),
    Server.start .unprivileged c .empty = .ok server ∧ start? server = some s ∧ Run s t ∧
      t.saver = some v ∧ (v.note t.canvas).stage = .waiting ∧ t.painted = [⟨0, 0, 5⟩] ∧
      ¬ t.Contains t.painted.length := by
  let c : Config := { Config.standard with width := 2, height := 1, snapshotPath := some "/c.json" }
  obtain ⟨server, hs⟩ : ∃ server, Server.start .unprivileged c .empty = .ok server := ⟨_, rfl⟩
  obtain ⟨hc, -, canvas, hl, rfl⟩ := Server.start_eq_ok_iff.1 hs
  obtain ⟨hw, hh, -⟩ := of_loadCanvas_eq_ok hc hl
  have hin : canvas.Holds 0 0 := by
    rw [Canvas.Holds, hw, hh]
    decide
  obtain ⟨dotted, hp⟩ :=
    Canvas.exists_paint_of_accepts (c := canvas) (p := ⟨0, 0, 5⟩) ⟨hin, by decide⟩
  let s : Upkeep := ⟨⟨Bytes.ofString "/c.json"⟩, canvas, .empty, none, [], 0⟩
  let t : Upkeep := ⟨s.file, dotted, .empty, some (.start s.file dotted), [⟨0, 0, 5⟩], 1⟩
  have hr : Run s t := ((Run.refl s).step (.paint _ _ dotted hp)).step (.look _ rfl)
  refine ⟨c, _, s, t, _, hs, rfl, hr, rfl, (Saver.stage_note _ _).2 ⟨rfl, rfl⟩, rfl, ?_⟩
  rintro ⟨picture, hf, -⟩
  have hn : s.file.load .empty = .ok none := rfl
  exact absurd (hn.symm.trans hf) (by simp)

end Upkeep
end SharedCanvas
