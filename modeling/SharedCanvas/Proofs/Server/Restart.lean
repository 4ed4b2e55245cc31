import SharedCanvas.Proofs.Broadcast.Eviction
import SharedCanvas.Proofs.Server.Load
import SharedCanvas.Proofs.Server.Size
import SharedCanvas.Proofs.Server.Steps
import SharedCanvas.Proofs.Session.Confined
import SharedCanvas.Proofs.Storage.Overlap

namespace SharedCanvas

/-- The saver keeps the canvas in the file of the settings, and what it has copied is a picture of
the size that they call for. -/
structure Saver.Keeps (c : Config) (v : Saver) : Prop where
  file : c.snapshotPath.map (fun path => SnapshotFile.mk (Bytes.ofString path)) = some v.file
  copied : ∀ n picture, v.stage = .copied n picture → ∃ canvas : Canvas,
    canvas.width = c.width ∧ canvas.height = c.height ∧ canvas.snapshot = picture

namespace Saver.Keeps

variable {c : Config} {v : Saver} {canvas : Canvas}

theorem of_stage (h : v.Keeps c) {w : Saver} (hf : w.file = v.file)
    (hs : ∀ n picture, w.stage ≠ .copied n picture) : w.Keeps c :=
  ⟨hf ▸ h.file, fun n picture hc => absurd hc (hs n picture)⟩

theorem note (h : v.Keeps c) (canvas : Canvas) : (v.note canvas).Keeps c := by
  unfold Saver.note
  split
  · split
    · exact h
    · exact h.of_stage rfl nofun
  · exact h

theorem copy (h : v.Keeps c) (hw : canvas.width = c.width) (hh : canvas.height = c.height) :
    (v.copy canvas).Keeps c := by
  unfold Saver.copy
  split
  · refine ⟨h.file, fun n picture hc => ⟨canvas, hw, hh, ?_⟩⟩
    cases hc
    rfl
  · exact h

theorem settle (h : v.Keeps c) (version cells : Nat) (result : Except (List String) Unit) :
    (v.settle version cells result).1.Keeps c := by
  cases result with
  | error e => exact h.of_stage rfl nofun
  | ok _ => exact h.of_stage rfl nofun

theorem draft (h : v.Keeps c) (fs : FileSystem) : (v.draft fs).1.Keeps c := by
  unfold Saver.draft
  split
  · split
    · exact h.of_stage rfl nofun
    · exact h.settle _ _ _
  · exact h

theorem publish (h : v.Keeps c) (fs : FileSystem) : (v.publish fs).1.Keeps c := by
  unfold Saver.publish
  split
  · split <;> exact h.settle _ _ _
  · exact h

theorem exists_leftPicture (h : v.Keeps c) (hw : canvas.width = c.width)
    (hh : canvas.height = c.height) : ∃ d : Canvas,
      d.width = c.width ∧ d.height = c.height ∧ d.snapshot = v.leftPicture canvas := by
  unfold Saver.leftPicture
  split
  · rename_i n picture hs
    exact h.copied n picture hs
  · exact ⟨canvas, hw, hh, rfl⟩

end Saver.Keeps

namespace Server

/-- The server is run with these settings. -/
structure Obeys (s : Server) (c : Config) : Prop where
  width : s.canvas.width = c.width
  height : s.canvas.height = c.height
  saver : ∀ v, s.saver = some v → v.Keeps c
  saves : s.saver.isSome = c.snapshotPath.isSome

variable {s t : Server} {c : Config}

theorem Obeys.of_sameSize (h : s.Obeys c) (hs : s.canvas.SameSize t.canvas)
    (hv : t.saver = s.saver) : t.Obeys c :=
  ⟨hs.1.trans h.width, hs.2.trans h.height, fun v ht => h.saver v (hv ▸ ht), hv ▸ h.saves⟩

theorem Obeys.of_saver (h : s.Obeys c) (hc : t.canvas = s.canvas) {v w : Saver}
    (hv : s.saver = some v) (hw : t.saver = some w) (hk : w.Keeps c) : t.Obeys c := by
  refine ⟨hc ▸ h.width, hc ▸ h.height, fun u hu => ?_, ?_⟩
  · obtain rfl := Option.some.inj (hw.symm.trans hu)
    exact hk
  · rw [← h.saves, hw, hv]
    rfl

theorem Step.obeys (hst : Step s t) (h : s.Obeys c) : t.Obeys c := by
  cases hst with
  | arrive peer socket => exact h.of_sameSize (s.service.sameSize_offer _) rfl
  | read id bytes => exact h.of_sameSize (s.service.sameSize_offer _) rfl
  | readEnd id => exact h.of_sameSize (s.service.sameSize_offer _) rfl
  | flush id =>
    refine h.of_sameSize ?_ rfl
    change s.room.canvas.SameSize (s.room.modify id _).1.canvas
    rw [Room.canvas_modify]
    exact .refl _
  | writable => exact h.of_sameSize (.refl _) rfl
  | stand id standing =>
    refine h.of_sameSize ?_ rfl
    change s.room.canvas.SameSize (s.room.stand id standing).canvas
    rw [Room.canvas_stand]
    exact .refl _
  | work lane => exact h.of_sameSize (s.service.sameSize_work lane) rfl
  | drain => exact h.of_sameSize ⟨rfl, rfl⟩ rfl
  | handOff ps => exact h.of_sameSize (s.room.sameSize_handOff s.service.lanes ps) rfl
  | look hl =>
    refine ⟨h.width, h.height, fun w hw => ?_, ?_⟩
    · obtain ⟨v, hv, rfl⟩ := Option.map_eq_some_iff.1 hw
      exact (h.saver v hv).of_stage rfl nofun
    · exact Option.isSome_map.trans h.saves
  | note v hv => exact h.of_saver rfl hv rfl ((h.saver v hv).note s.canvas)
  | copy v hv => exact h.of_saver rfl hv rfl ((h.saver v hv).copy h.width h.height)
  | draft v hv => exact h.of_saver rfl hv rfl ((h.saver v hv).draft s.files)
  | publish v hv => exact h.of_saver rfl hv rfl ((h.saver v hv).publish s.files)
  | others files => exact h.of_sameSize (.refl _) rfl

theorem Run.obeys (hr : Run s t) (h : s.Obeys c) : t.Obeys c := by
  induction hr with
  | refl => exact h
  | step _ hst ih => exact hst.obeys ih

theorem obeys_of_start {h : Host} {fs : FileSystem} (hs : start h c fs = .ok s) : s.Obeys c := by
  obtain ⟨hc, -, canvas, hl, rfl⟩ := start_eq_ok_iff.1 hs
  obtain ⟨hw, hh, -⟩ := of_loadCanvas_eq_ok hc hl
  refine ⟨hw, hh, fun v hv => ?_, ?_⟩
  · obtain ⟨path, hp, rfl⟩ := Option.map_eq_some_iff.1 hv
    exact ⟨by rw [hp]; rfl, nofun⟩
  · exact Option.isSome_map

theorem obeys_close (h : s.Obeys c) : s.close.1.Obeys c :=
  h.of_sameSize s.service.sameSize_workAll rfl

variable {v : Saver} {order : List FinalSave}

theorem shutdown_eq (hv : s.saver = some v) (order : List FinalSave) :
    s.shutdown order =
      let saves := (FinalSave.start v s.files).run v.file
        (FinalSave.picture v s.close.1.canvas) order
      (s.close.1.withFiles saves.files, saves.stage) := by
  have hc : s.close.1.saver = some v := hv
  rw [shutdown]
  simp only [hc]
  rfl

/-- With no save of a period under way the end is a save of what the canvas shows then. -/
theorem shutdown_inTurn {fs : FileSystem} {r : Except StoreError Unit} (hv : s.saver = some v)
    (hw : v.stage = .waiting) (hsave : v.file.save s.close.1.canvas.snapshot s.files = (fs, r)) :
    s.shutdown.1.files = fs ∧ s.shutdown.2 .begun = .ended (.ok ()) ∧
      s.shutdown.2 .last = .ended r := by
  let both := FinalSave.picture v s.close.1.canvas
  have hbegun : (FinalSave.start v s.files).stage .begun = .ended (.ok ()) := by
    change v.left = _
    rw [Saver.left, hw]
  have hstay : Saves.step v.file both (FinalSave.start v s.files) .begun =
      FinalSave.start v s.files := by
    simp only [Saves.step, hbegun]
  have hrun : (FinalSave.start v s.files).run v.file both FinalSave.inTurn =
      (FinalSave.start v s.files).put .last fs (.ended r) := by
    have hlast : (FinalSave.start v s.files).run v.file both [.last, .last] = _ :=
      Saves.run_alone rfl hsave
    simp only [FinalSave.inTurn, Saves.run, List.foldl_cons, hstay] at hlast ⊢
    exact hlast
  rw [shutdown_eq hv, hrun]
  dsimp only
  refine ⟨rfl, ?_, Saves.stage_put_self (FinalSave.start v s.files) ..⟩
  exact (Saves.stage_put_of_ne (by decide) (FinalSave.start v s.files) ..).trans hbegun

/-- The save that a period has begun is made after the last one. -/
theorem shutdown_overtaken {n : Nat} {picture : Snapshot} {fs fs' : FileSystem}
    {r r' : Except StoreError Unit} (hv : s.saver = some v) (hst : v.stage = .copied n picture)
    (hfirst : v.file.save s.close.1.canvas.snapshot s.files = (fs, r))
    (hsecond : v.file.save picture fs = (fs', r')) :
    (s.shutdown [.last, .last, .begun, .begun]).1.files = fs' ∧
      (s.shutdown [.last, .last, .begun, .begun]).2 .last = .ended r ∧
        (s.shutdown [.last, .last, .begun, .begun]).2 .begun = .ended r' := by
  let both := FinalSave.picture v s.close.1.canvas
  let first := (FinalSave.start v s.files).put .last fs (.ended r)
  have hpicture : both .begun = picture := by
    change v.leftPicture _ = _
    rw [Saver.leftPicture, hst]
  have hlast : (FinalSave.start v s.files).run v.file both [.last, .last] = first :=
    Saves.run_alone rfl hfirst
  have hleft : first.stage .begun = .called := by
    rw [Saves.stage_put_of_ne (by decide)]
    change v.left = _
    rw [Saver.left, hst]
  have hbegun : first.run v.file both [.begun, .begun] = first.put .begun fs' (.ended r') :=
    Saves.run_alone hleft (hpicture.symm ▸ hsecond)
  have hrun : (FinalSave.start v s.files).run v.file both [.last, .last, .begun, .begun] =
      first.put .begun fs' (.ended r') := by
    rw [← hbegun, ← hlast]
    rfl
  rw [shutdown_eq hv, hrun]
  dsimp only
  refine ⟨rfl, ?_, Saves.stage_put_self first ..⟩
  exact (Saves.stage_put_of_ne (by decide) first ..).trans (Saves.stage_put_self ..)

/-- The save that the timer has begun is still to write its draft when the last one has written its
own. -/
def IsOvertaken (s : Server) (order : List FinalSave) : Prop :=
  ∃ before, before <+: order ∧ (s.shutdown before).2 .begun = .called ∧
    2 ≤ ((s.shutdown before).2 .last).rank

/-- What the file holds when the last save has succeeded: its picture or the one that was under way,
whether that save has ended or not. -/
theorem read_of_shutdown (hv : s.saver = some v)
    (hok : (s.shutdown order).2 .last = .ended (.ok ())) :
    (s.IsOvertaken order → ((s.shutdown order).2 .begun).isUnderWay = false →
        (s.shutdown order).1.files.read v.file.path =
          .ok (v.leftPicture s.close.1.canvas).toJson) ∧
      (¬ s.IsOvertaken order → (s.shutdown order).1.files.read v.file.path =
        .ok s.close.1.canvas.snapshot.toJson) ∧
      ∃ i, (s.shutdown order).1.files.read v.file.path =
        .ok (FinalSave.picture v s.close.1.canvas i).toJson := by
  unfold IsOvertaken
  simp only [shutdown_eq hv] at hok ⊢
  generalize hpic : FinalSave.picture v s.close.1.canvas = picture at hok ⊢
  have hleft : picture .begun = v.leftPicture s.close.1.canvas := by rw [← hpic]; rfl
  have hlast : picture .last = s.close.1.canvas.snapshot := by rw [← hpic]; rfl
  rw [← hleft, ← hlast]
  obtain ⟨hd, hf⟩ := Saves.canHold_of_ended (s := FinalSave.start v s.files) rfl order hok
  obtain ⟨dir, name, hp, -⟩ := SnapshotFile.exists_places hd hf
  have hplaces := fun before => Saves.places_run hp picture before
  refine ⟨?_, ?_, Saves.exists_read_of_ended hp rfl order hok⟩
  · rintro ⟨before, ⟨rest, rfl⟩, hb, hl⟩ hend
    rw [Saves.run_append] at hend ⊢
    have hcalled : ∀ j, (Saves.run v.file picture (FinalSave.start v s.files) before).stage j =
        .called → j = .begun := by
      rintro (_ | _) hw
      · rfl
      · simp [hw, Stage.rank] at hl
    -- Of the two only the one that was begun has still to write its draft.
    obtain ⟨j, hj, hread⟩ := Saves.exists_last (hplaces before) hb rest
      (fun j hj => hcalled j hj ▸ hend) <| by
        rintro (_ | _) hw
        · cases hb.symm.trans hw
        · simp [hw, Stage.rank] at hl
    exact hcalled j hj ▸ hread
  · intro hno
    obtain ⟨before, after, rfl, hc, hr⟩ := Saves.exists_draft_step hp rfl order (i := .last) (by
      rw [hok]
      exact Nat.le_succ 2)
    rw [Saves.run_append] at hok ⊢
    have hbegun : 1 ≤ ((Saves.run v.file picture (FinalSave.start v s.files) before).stage
        .begun).rank := by
      have hstart : 1 ≤ ((FinalSave.start v s.files).stage .begun).rank := by
        change 1 ≤ v.left.rank
        unfold Saver.left
        split <;> decide
      exact (Saves.run_induction hp hstart
        (fun _ _ _ ht h => Nat.le_trans h (ht.rank_le .begun)) before).2
    have hcalled : ∀ j, (Saves.run v.file picture (FinalSave.start v s.files) before).stage j =
        .called → j = .last := by
      rintro (_ | _) hj
      · refine absurd ⟨before ++ [.last], ⟨after, by simp⟩, ?_, hr⟩ hno
        rw [Saves.run_append]
        exact (Saves.stage_step_of_ne (by decide)).trans hj
      · rfl
    obtain ⟨j, hj, hread⟩ := Saves.exists_last (hplaces before) hc (.last :: after)
      (fun j hj => by rw [hcalled j hj, hok]; rfl) <| by
        rintro (_ | _) hw
        · simp [hw, Stage.rank] at hbegun
        · cases hc.symm.trans hw
    exact hcalled j hj ▸ hread

theorem exists_start_of_read {h : Host} {fs files : FileSystem} {server : Server} {d : Canvas}
    (hs : start h c fs = .ok server) (hk : v.Keeps c) (hw : d.width = c.width)
    (hh : d.height = c.height) (hread : files.read v.file.path = .ok d.snapshot.toJson) :
    ∃ next, start h c files = .ok next ∧ next.canvas.IsUntouched ∧
      next.canvas.snapshot = d.snapshot := by
  obtain ⟨hc, hl, -⟩ := start_eq_ok_iff.1 hs
  have hf : c.Finds files d.snapshot := by
    obtain ⟨path, hp, hfile⟩ := Option.map_eq_some_iff.1 hk.file
    rw [← hfile] at hread
    exact ⟨path, _, hp, hread, d.snapshot.ofJson_toJson, hw, hh, d.length_pixels_snapshot⟩
  obtain ⟨canvas, hof, hcs, hu⟩ :=
    Canvas.exists_ofSnapshot d.check_snapshot d.unknownColor?_snapshot
  have hload : loadCanvas c files = .ok canvas := by
    rw [hf.load_eq hc, hof]
    rfl
  exact ⟨_, start_eq_ok_iff.2 ⟨hc, hl, canvas, hload, rfl⟩, hu, hcs⟩

theorem exists_listens_of_start {h : Host} {c : Config} {fs : FileSystem} {server : Server}
    (hs : start h c fs = .ok server) (hw : c.workers = 1) (hq : c.queueCapacity = 1)
    {request : Bytes} (hr : Handshake.IsUpgrade request) (hc : request.length ≤ c.recvBuffer)
    (hl : 129 ≤ c.outboxLimit)
    (hl' : (Frame.encode .binary server.canvas.snapshot.encode).length ≤ c.outboxLimit) :
    ∃ (t : Server) (d : Connection), Run server t ∧ t.service.lanes = .start 1 1 ∧
      t.canvas = server.canvas ∧ t.files = server.files ∧ t.saver = server.saver ∧
        t.ticker = none ∧ t.looked = false ∧ t.room.member? 1 = some d ∧
          d.Listens c.recvBuffer := by
  obtain ⟨hcheck, -, canvas, -, hserver⟩ := start_eq_ok_iff.1 hs
  obtain ⟨-, -, -, hclients, -⟩ := Config.check_eq_ok_iff.1 hcheck
  have hlanes : server.service.lanes = .start 1 1 := by rw [hserver, hw, hq]
  have haccept : (server.room.accept 1 "peer" .fresh).1 = { server.room with
      connections := [server.room.newcomer 1 "peer" .fresh] } := by
    subst hserver
    exact Room.accept_of_lt (r := .new ..) (Nat.pos_of_ne_zero hclients) rfl 1 "peer"
  have hrun := (Run.refl server).accept hlanes (by rw [hserver])
  rw [haccept] at hrun
  have hfits : (server.room.newcomer 1 "peer" .fresh).inbox = .new c.recvBuffer ∧
      (server.room.newcomer 1 "peer" .fresh).outbox.limit = c.outboxLimit := by
    subst hserver
    exact ⟨rfl, rfl⟩
  have hm : ({ server.room with
      connections := [server.room.newcomer 1 "peer" .fresh] } : Room).member? 1 = some _ := rfl
  obtain ⟨hcanvas, d, hm, hd⟩ := Room.exists_listens hm ⟨⟨rfl, rfl, rfl⟩, rfl⟩ rfl hfits.1 hr hc
    (hfits.2 ▸ hl) (hfits.2 ▸ hl')
  exact ⟨_, d, hrun.data rfl request, rfl, hcanvas, rfl, rfl, by rw [hserver], by rw [hserver],
    hm, hd⟩

theorem Run.paint (h : Run s t) (hl : t.service.lanes = .start 1 1) {d : Connection} {limit : Nat}
    (hm : t.room.member? 1 = some d) (hd : d.Listens limit) (hlimit : 11 ≤ limit) (p : Pixel) :
    ∃ room : Room, room.member? 1 = some d ∧ room.canvas = (t.canvas.paintAll [p]).1 ∧
      Run s { t with service := ⟨room, .start 1 1⟩ } := by
  let frame := Frame.encodeMasked .binary p.record ⟨1, 2, 3, 4⟩
  have hdec : Frame.decode frame =
      .ok (.complete ⟨true, Opcode.binary.code, true, p.record⟩ frame.length) := by
    have hrec : p.record.length < 2 ^ 63 := by
      change 5 < 2 ^ 63
      decide
    have hcontrol : Opcode.binary.isControl = true → true = true ∧ p.record.length ≤ 125 :=
      fun hc => absurd hc (by decide)
    have hd := Frame.decode_encodeWith (some ⟨1, 2, 3, 4⟩) hrec hcontrol []
    rwa [List.append_nil] at hd
  have hlen : frame.length = 11 := Frame.length_encodeWith _ _ _ _
  obtain ⟨hm', hc⟩ := Room.receive_of_listens hm hd hdec
    (Nat.le_trans (show p.record.length ≤ 11 by change 5 ≤ 11; decide) hlimit) (hlen ▸ hlimit)
  have hp : Pixel.ofRecords p.record = [p] := by
    rw [← List.append_nil p.record, Pixel.ofRecords_record_append]
    rfl
  rw [hp] at hc
  exact ⟨_, hm', hc, h.data hl frame⟩

theorem canvas_close_of_isIdle (h : s.service.lanes.IsIdle) : s.close.1.canvas = s.canvas := by
  have hw := Service.workAll_of_isIdle s.room h
  exact congrArg (fun r => r.1.room.canvas) hw

theorem exists_painter : ∃ (c : Config) (server t : Server) (d : Connection) (limit : Nat),
    c.snapshotPath = some "/c.json" ∧ start .unprivileged c .empty = .ok server ∧ Run server t ∧
      Canvas.blank 2 1 Palette.white = .ok server.canvas ∧ t.canvas = server.canvas ∧
        t.service.lanes = .start 1 1 ∧ t.files = .empty ∧
          t.saver = some (.start ⟨Bytes.ofString "/c.json"⟩ t.canvas) ∧ t.ticker = none ∧
            t.looked = true ∧
            t.room.member? 1 = some d ∧ d.Listens limit ∧ 11 ≤ limit := by
  let c : Config := { Config.standard with
    width := 2, height := 1, workers := 1, queueCapacity := 1, snapshotPath := some "/c.json" }
  obtain ⟨server, hs, hb, hfiles, hsaver⟩ : ∃ server, start .unprivileged c .empty = .ok server ∧
      Canvas.blank 2 1 Palette.white = .ok server.canvas ∧ server.files = .empty ∧
        server.saver = some (.start ⟨Bytes.ofString "/c.json"⟩ server.canvas) :=
    ⟨_, rfl, rfl, rfl, rfl⟩
  obtain ⟨request, hr, hlen⟩ : ∃ request, Handshake.IsUpgrade request ∧
      request.length ≤ c.recvBuffer :=
    ⟨_, Handshake.isUpgrade_upgradeRequest, by decide +kernel⟩
  have hpic : (Frame.encode .binary server.canvas.snapshot.encode).length ≤ c.outboxLimit := by
    rw [Frame.encode, Frame.length_encodeWith, Snapshot.length_encode,
      Canvas.length_pixels_snapshot]
    generalize server.canvas = canvas at hb
    cases hb
    decide
  obtain ⟨t, d, ht, hl, hc, hf, hv, hn, hlook, hm, hd⟩ :=
    exists_listens_of_start hs rfl rfl hr hlen (by decide) hpic
  refine ⟨c, server, t.look, d, _, rfl, hs, ht.step (.look t hlook), hb, hc, hl, hf.trans hfiles,
    ?_, hn, rfl, hm, hd, by decide⟩
  change t.saver.map _ = _
  rw [hv, hsaver]
  rfl

theorem exists_save_empty (picture : Snapshot) :
    ∃ fs, SnapshotFile.save ⟨Bytes.ofString "/c.json"⟩ picture .empty = (fs, .ok ()) :=
  SnapshotFile.exists_save_iff.2
    ⟨⟨⟨[Bytes.ofString "c.json.tmp"], false⟩, by decide +kernel, rfl, by decide +kernel⟩,
      ⟨[Bytes.ofString "c.json"], false⟩, by decide +kernel, rfl, by decide +kernel⟩

theorem canvas_shutdown (hv : s.saver = some v) (order : List FinalSave) :
    (s.shutdown order).1.canvas = s.close.1.canvas := by
  rw [shutdown_eq hv]
  rfl

/-- A server that was started is run and shut down, and the last save succeeds. Then it can be
started again with the same settings, and nothing is painted yet. It shows what was shown at the
end, or else the older picture of a save that its timer had begun. It shows the former unless the
last save has been overtaken, and the latter if it has been and the other save has ended. -/
theorem exists_start_of_shutdown {h : Host} {fs : FileSystem} {server : Server} {path : String}
    (hp : c.snapshotPath = some path) (hs : start h c fs = .ok server) (hr : Run server s)
    (hok : (s.shutdown order).2 .last = .ended (.ok ())) :
    ∃ next, start h c (s.shutdown order).1.files = .ok next ∧ next.canvas.IsUntouched ∧
      next.canvas.width = (s.shutdown order).1.canvas.width ∧
      next.canvas.height = (s.shutdown order).1.canvas.height ∧
      (next.canvas.cells = (s.shutdown order).1.canvas.cells ∨ ∃ v n picture,
        s.saver = some v ∧ v.stage = .copied n picture ∧ next.canvas.snapshot = picture) ∧
      (¬ s.IsOvertaken order → next.canvas.cells = (s.shutdown order).1.canvas.cells) ∧
      (s.IsOvertaken order → ((s.shutdown order).2 .begun).isUnderWay = false →
        ∀ v n picture, s.saver = some v → v.stage = .copied n picture →
          next.canvas.snapshot = picture) := by
  have ho := hr.obeys (obeys_of_start hs)
  have hclose := obeys_close ho
  obtain ⟨v, hv⟩ := Option.isSome_iff_exists.1 (ho.saves.trans (by rw [hp]; rfl))
  have hk := ho.saver v hv
  obtain ⟨hover, hnot, i, hi⟩ := read_of_shutdown hv hok
  rw [canvas_shutdown hv]
  -- Either way the file holds the picture of a canvas of the right size.
  obtain ⟨d, hw, hh, hd⟩ : ∃ d : Canvas, d.width = c.width ∧ d.height = c.height ∧
      d.snapshot = FinalSave.picture v s.close.1.canvas i := by
    cases i with
    | begun => exact hk.exists_leftPicture hclose.width hclose.height
    | last => exact ⟨_, hclose.width, hclose.height, rfl⟩
  obtain ⟨next, hnext, hu, hcs⟩ := exists_start_of_read hs hk hw hh (hd ▸ hi)
  have hread : ∀ {picture : Snapshot},
      (s.shutdown order).1.files.read v.file.path = .ok picture.toJson →
        next.canvas.snapshot = picture := fun hpicture =>
    (hcs.trans hd).trans (Snapshot.toJson_injective (Except.ok.inj (hi.symm.trans hpicture)))
  have hcells : next.canvas.snapshot = s.close.1.canvas.snapshot →
      next.canvas.cells = s.close.1.canvas.cells :=
    fun he => Array.toList_inj.1 (congrArg Snapshot.pixels he)
  refine ⟨next, hnext, hu, (congrArg Snapshot.width hcs).trans (hw.trans hclose.width.symm),
    (congrArg Snapshot.height hcs).trans (hh.trans hclose.height.symm), ?_,
    fun hno => hcells (hread (hnot hno)), ?_⟩
  · cases i with
    | begun =>
      have hleft : next.canvas.snapshot = v.leftPicture s.close.1.canvas := hcs.trans hd
      unfold Saver.leftPicture at hleft
      split at hleft
      · rename_i n picture hst
        exact .inr ⟨v, n, picture, hv, hst, hleft⟩
      · exact .inl (hcells hleft)
    | last => exact .inl (hcells (hcs.trans hd))
  · intro ht hend w n picture hw hst
    obtain rfl := Option.some.inj (hv.symm.trans hw)
    rw [hread (hover ht hend), Saver.leftPicture, hst]

/-- A client paints a cell, and the broadcast timer fires. Nothing is under way at the end. -/
theorem exists_start_of_shutdown_painted_cell : ∃ (c : Config) (server s next : Server),
    c.snapshotPath = some "/c.json" ∧ start .unprivileged c .empty = .ok server ∧ Run server s ∧
      server.canvas.cells = #[29, 29] ∧ s.canvas.cells = #[5, 29] ∧ s.canvas.announcements = [] ∧
      s.shutdown.2 .last = .ended (.ok ()) ∧
      start .unprivileged c s.shutdown.1.files = .ok next ∧ next.canvas.IsUntouched ∧
      s.shutdown.1.canvas.cells = #[5, 29] ∧ next.canvas.cells = #[5, 29] := by
  obtain ⟨c, server, t, d, limit, hp, hs, ht, hb, hcanvas, hl, hf, hv, hn, hlook, hm, hd, hlimit⟩ :=
    exists_painter
  obtain ⟨room, -, hroom, hpaint⟩ := ht.paint hl hm hd hlimit ⟨0, 0, 5⟩
  obtain ⟨hblank, hcells, hdirty, hclean⟩ : server.canvas.cells = #[29, 29] ∧
      room.canvas.cells = #[5, 29] ∧ room.canvas.announcements ≠ [] ∧
        room.canvas.drain.1.announcements = [] := by
    rw [hroom, hcanvas]
    generalize server.canvas = canvas at hb
    cases hb
    exact ⟨by decide, by decide, by decide, by decide⟩
  obtain ⟨told, htold, hr⟩ := hpaint.announce rfl hn hdirty
  let s : Server := { t with service := ⟨told, .start 1 1⟩, ticker := none }
  have hshown : s.shutdown.1.canvas.cells = #[5, 29] := by
    rw [canvas_shutdown (s := s) hv, canvas_close_of_isIdle (Lanes.isIdle_start 1 1)]
    exact (congrArg Canvas.cells htold).trans hcells
  obtain ⟨fs, hsave⟩ := exists_save_empty s.close.1.canvas.snapshot
  rw [← show s.files = .empty from hf] at hsave
  obtain ⟨-, -, hok⟩ := shutdown_inTurn (s := s) hv rfl hsave
  obtain ⟨next, hnext, hu, -, -, hsame | ⟨v, n, picture, hs', hst, -⟩, -⟩ :=
    exists_start_of_shutdown hp hs hr hok
  · exact ⟨c, server, s, next, hp, hs, hr, hblank, (congrArg Canvas.cells htold).trans hcells,
      (congrArg Canvas.announcements htold).trans hclean, hok, hnext, hu, hshown,
      hsame.trans hshown⟩
  · cases hv.symm.trans hs'
    cases hst

/-- The timer has begun a save when a client paints once more. The last save succeeds, and then the
other one puts the older picture in its place. -/
theorem older_picture_is_restored : ∃ (c : Config) (server s next : Server)
    (order : List FinalSave), c.snapshotPath = some "/c.json" ∧
      start .unprivileged c .empty = .ok server ∧ Run server s ∧
      (s.shutdown order).2 .begun = .ended (.ok ()) ∧
      (s.shutdown order).2 .last = .ended (.ok ()) ∧
      start .unprivileged c (s.shutdown order).1.files = .ok next ∧
      (s.shutdown order).1.canvas.cells = #[5, 7] ∧ next.canvas.cells = #[5, 29] := by
  obtain ⟨c, server, t, d, limit, hp, hs, ht, hb, hcanvas, hl, hf, hv, hn, hlook, hm, hd, hlimit⟩ :=
    exists_painter
  obtain ⟨room, hm, hroom, hpaint⟩ := ht.paint hl hm hd hlimit ⟨0, 0, 5⟩
  let v : Saver :=
    ((Saver.start ⟨Bytes.ofString "/c.json"⟩ t.canvas).note room.canvas).copy room.canvas
  have hcopied := (hpaint.step (.note _ _ hv hlook)).step (.copy _ _ rfl)
  obtain ⟨more, -, hmore, hr⟩ := hcopied.paint rfl hm hd hlimit ⟨1, 0, 7⟩
  change more.canvas = (room.canvas.paintAll _).1 at hmore
  obtain ⟨hst, hfile, hcells, hold⟩ : v.stage = .copied 1 room.canvas.snapshot ∧
      v.file = ⟨Bytes.ofString "/c.json"⟩ ∧ more.canvas.cells = #[5, 7] ∧
        room.canvas.cells = #[5, 29] := by
    dsimp only [v]
    rw [hmore, hroom, hcanvas]
    generalize server.canvas = canvas at hb
    cases hb
    exact ⟨by decide +kernel, by decide +kernel, by decide, by decide⟩
  let s : Server := { t with service := ⟨more, .start 1 1⟩, saver := some v }
  have hr : Run server s := hr
  clear hcopied
  have hclose : s.close.1.canvas = more.canvas := canvas_close_of_isIdle (Lanes.isIdle_start 1 1)
  obtain ⟨fs, hfirst⟩ := exists_save_empty s.close.1.canvas.snapshot
  obtain ⟨fs', hsecond⟩ := SnapshotFile.exists_save_of_save hfirst room.canvas.snapshot
  rw [← hfile] at hfirst hsecond
  rw [← show s.files = .empty from hf] at hfirst
  obtain ⟨hfiles, hlast, hbegun⟩ := shutdown_overtaken (s := s) rfl hst hfirst hsecond
  have hk := (hr.obeys (obeys_of_start hs)).saver v rfl
  obtain ⟨old, hw, hh, hold'⟩ := hk.copied 1 _ hst
  have hread : fs'.read v.file.path = .ok old.snapshot.toJson := by
    rw [hold']
    exact SnapshotFile.read_of_save hsecond
  obtain ⟨next, hnext, -, hpicture⟩ := exists_start_of_read hs hk hw hh hread
  refine ⟨c, server, s, next, [.last, .last, .begun, .begun], hp, hs, hr, hbegun, hlast,
    hfiles ▸ hnext, ?_, ?_⟩
  · rw [canvas_shutdown (s := s) rfl, hclose, hcells]
  · rw [← hold]
    exact Array.toList_inj.1 (congrArg Snapshot.pixels (hpicture.trans hold'))

end Server
end SharedCanvas
