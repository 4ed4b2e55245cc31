import SharedCanvas.Proofs.Broadcast.Convergence
import SharedCanvas.Proofs.Server.Arrivals
import SharedCanvas.Proofs.Server.Upkeep
import SharedCanvas.Proofs.Session.Queued
import SharedCanvas.Proofs.Session.Transcript

namespace SharedCanvas

open Function (update)

theorem Room.put_put (r : Room) {c d : Connection} (h : c.id = d.id) :
    (r.put c).put d = r.put d := by
  rw [put, put, put]
  dsimp only
  rw [List.map_map]
  congr 1
  refine List.map_congr_left fun b _ => ?_
  dsimp only [Function.comp]
  by_cases hb : b.id = d.id <;> simp [hb, h]

theorem Room.exists_hangUp (r : Room) (id : Nat) :
    ∃ reason, (r.hangUp id).1 = (r.teardown id reason).1 := by
  unfold hangUp teardown modify
  cases r.member? id with
  | none => exact ⟨.peerClosed, rfl⟩
  | some c => exact ⟨if c.inbox.midUnit then .peerClosedMidMessage else .peerClosed, rfl⟩

namespace Transcript

variable {s t : Transcript}

theorem Step.exists_gathering (hst : Step s t) {g : Gathering} (hr : g.room = s.room)
    (hh : ∀ id, (g.heard id).flatten = s.heard id) : ∃ g', Gathering.Step g g' ∧
      g'.room = t.room ∧ ∀ id, (g'.heard id).flatten = t.heard id := by
  obtain ⟨room, heard, opened, drained, composed⟩ := s
  obtain rfl : g.room = room := hr
  cases hst with
  | connect id peer socket hi hs =>
    refine ⟨_, .connect g id peer socket hi hs, rfl, fun i => ?_⟩
    change (update g.heard id [] i).flatten = update heard id [] i
    rw [Function.update_apply, Function.update_apply]
    split
    · rfl
    · exact hh i
  | data id bytes =>
    refine ⟨_, .data g id bytes, rfl, fun i => ?_⟩
    change (update g.heard id (g.heard id ++ [bytes]) i).flatten =
      update heard id (heard id ++ bytes) i
    rw [Function.update_apply, Function.update_apply]
    split
    · rw [List.flatten_append, List.flatten_singleton, hh id]
    · exact hh i
  | hangUp id => exact ⟨_, .hangUp g id, rfl, hh⟩
  | broadcast payload hp => exact ⟨_, .broadcast g payload, rfl, hh⟩
  | drain => exact ⟨_, .repaint g g.room.canvas.drain.1, rfl, hh⟩
  | handOff lanes ps hps =>
    refine ⟨_, .repaint g (g.room.handOff lanes ps).1.canvas, ?_, hh⟩
    change _ = (g.room.handOff lanes ps).1
    rcases g.room.handOff_cases lanes ps with ⟨-, hr⟩ | ⟨-, _, _, -, hr⟩ | ⟨_, hr⟩ <;>
      rw [hr] <;> rfl
  | writable id => exact ⟨_, .writable g id, rfl, hh⟩
  | writableAll => exact ⟨_, .writableAll g, rfl, hh⟩
  | teardown id reason => exact ⟨_, .teardown g id reason, rfl, hh⟩
  | teardownAll reason => exact ⟨_, .teardownAll g reason, rfl, hh⟩
  | stand id standing => exact ⟨_, .stand g id standing, rfl, hh⟩
  | refile files => exact ⟨_, .refile g files, rfl, hh⟩

/-- Every transcript that can be reached is that of a gathering that can be reached. -/
theorem exists_gathering (h : Reachable t) : ∃ g, Gathering.Reachable g ∧ g.room = t.room ∧
    ∀ id, (g.heard id).flatten = t.heard id := by
  induction h with
  | @start room hr hm => exact ⟨.start room, ⟨room, hr, .refl _⟩, rfl, fun _ => rfl⟩
  | step _ hst ih =>
    obtain ⟨g, ⟨room, hr, hrun⟩, hroom, hheard⟩ := ih
    obtain ⟨g', hs, hroom', hheard'⟩ := hst.exists_gathering hroom hheard
    exact ⟨g', ⟨room, hr, hrun.step hs⟩, hroom', hheard'⟩

end Transcript

namespace Server

variable {s s' server : Server} {c : Config}

/-- The transcript is of the same room. It has noted what the ticker holds, and the deltas that
wait. -/
structure Told (s : Server) (t : Transcript) : Prop where
  room : t.room = s.room
  drained : ∀ ps, s.ticker = some ps → ps ∈ t.drained
  composed : ∀ k payload, .broadcast payload ∈ s.service.lanes.tasks k → payload ∈ t.composed

variable {t : Transcript}

theorem Told.setRoom (h : s.Told t) {room : Room} (hs : Transcript.Step t (t.setRoom room))
    (hl : ∀ k, ∀ task ∈ s'.service.lanes.tasks k, task ∈ s.service.lanes.tasks k)
    (ht : s'.ticker = s.ticker) (hr : s'.room = room) :
    ∃ t', (t' = t ∨ Transcript.Step t t') ∧ s'.Told t' :=
  ⟨_, .inr hs, hr.symm, ht ▸ h.drained, fun k payload hm => h.composed k payload (hl k _ hm)⟩

theorem Told.stay (h : s.Told t) (hr : s'.room = s.room)
    (hl : ∀ k payload, .broadcast payload ∈ s'.service.lanes.tasks k →
      .broadcast payload ∈ s.service.lanes.tasks k)
    (ht : s'.ticker = s.ticker) : ∃ t', (t' = t ∨ Transcript.Step t t') ∧ s'.Told t' :=
  ⟨t, .inl rfl, h.room.trans hr.symm, ht ▸ h.drained, fun k payload hm =>
    h.composed k payload (hl k payload hm)⟩

theorem Told.offer (h : s.Told t) (task : Task) {id : Nat} (hid : task.connection? = some id)
    (n : Nat) : ∃ t', (t' = t ∨ Transcript.Step t t') ∧
      Told { (s.offer task).1 with nextId := n } t' := by
  change ∃ t', _ ∧ Told { s with service := (s.service.offer task).1, nextId := n } t'
  rcases s.service.offer_cases task with ⟨l, hl, ho⟩ | ho | ⟨id, reason, -, ho⟩
  · rw [ho]
    refine h.stay rfl (fun k payload hm => ?_) rfl
    rcases Lanes.mem_tasks_submit hl hm with hm | rfl
    · exact hm
    · cases hid
  · rw [ho]
    exact h.stay rfl (fun _ _ hm => hm) rfl
  · rw [ho, show s.service.room = t.room from h.room.symm]
    exact h.setRoom (.teardown t id reason) (fun _ _ hm => hm) rfl rfl

theorem Told.work (h : s.Told t) (hs : s.Tidy) (lane : Nat) :
    ∃ t', (t' = t ∨ Transcript.Step t t') ∧
      Told { s with service := (s.service.work lane).1 } t' := by
  rcases s.service.work_cases lane with hw | ⟨task, l, ht, hw⟩
  · rw [hw]
    exact h.stay rfl (fun _ _ hm => hm) rfl
  have hsub : ∀ k, ∀ u ∈ l.tasks k, u ∈ s.service.lanes.tasks k :=
    fun k _ hu => (Lanes.sublist_tasks_take ht k).mem hu
  have htask := Lanes.mem_tasks_of_take ht
  rw [hw, show s.service.room = t.room from h.room.symm]
  cases task with
  | connect id peer socket =>
    obtain ⟨-, hid, hr⟩ := hs.coming lane id peer socket htask
    have hn : t.room.connection? id = none := by
      rw [h.room]
      exact Room.connection?_eq_none_iff.2 hid
    exact ⟨_, .inr (.connect t id peer socket hn hr), rfl, h.drained,
      fun k payload hm => h.composed k payload (hsub k _ hm)⟩
  | data id bytes =>
    exact ⟨_, .inr (.data t id bytes), rfl, h.drained,
      fun k payload hm => h.composed k payload (hsub k _ hm)⟩
  | hangUp id => exact h.setRoom (.hangUp t id) hsub rfl rfl
  | broadcast payload =>
    exact h.setRoom (.broadcast t payload (h.composed lane payload htask)) hsub rfl rfl

theorem Told.handOff (h : s.Told t) {ps : List Pixel} (ht : s.ticker = some ps) :
    ∃ t', (t' = t ∨ Transcript.Step t t') ∧ (s.handOff ps).Told t' := by
  refine ⟨_, .inr (.handOff t s.service.lanes ps (h.drained ps ht)), ?_, nofun, ?_⟩
  · change (t.room.handOff s.service.lanes ps).1 = (s.room.handOff s.service.lanes ps).1
    rw [h.room]
  · intro k payload hm
    change _ ∈ (s.room.handOff s.service.lanes ps).2.1.tasks k at hm
    change payload ∈ Delta.toJson ⟨t.room.activeCount, ps⟩ :: t.composed
    rcases s.room.handOff_cases s.service.lanes ps with ⟨-, hr⟩ | ⟨-, l, _, hl, hr⟩ | ⟨_, hr⟩
    · rw [hr] at hm
      exact List.mem_cons_of_mem _ (h.composed k payload hm)
    · rw [hr] at hm
      rcases Lanes.mem_tasks_submit hl hm with hm | hm
      · exact List.mem_cons_of_mem _ (h.composed k payload hm)
      · rw [h.room, Task.broadcast.inj hm]
        exact List.mem_cons_self
    · rw [hr] at hm
      exact List.mem_cons_of_mem _ (h.composed k payload hm)

theorem Told.withFiles (h : s.Told t) (files : FileSystem) (saver : Option Saver) :
    ∃ t', (t' = t ∨ Transcript.Step t t') ∧ Told { s.withFiles files with saver } t' :=
  h.setRoom (.refile t files) (fun _ _ hm => hm) rfl (congrArg (Room.withFiles · files) h.room.symm)

theorem Step.told (hst : Step s s') (hs : s.Tidy) (h : s.Told t) :
    ∃ t', (t' = t ∨ Transcript.Step t t') ∧ s'.Told t' := by
  cases hst with
  | arrive peer socket hsock => exact h.offer _ rfl _
  | read id bytes => exact h.offer (.data id bytes) rfl s.nextId
  | readEnd id => exact h.offer (.hangUp id) rfl s.nextId
  | flush id =>
    rw [← h.room]
    exact h.setRoom (.writable t id) (fun _ _ hm => hm) rfl rfl
  | writable =>
    exact h.setRoom (.writableAll t) (fun _ _ hm => hm) rfl
      (congrArg (fun r => r.writableAll.1) h.room.symm)
  | stand id standing =>
    rw [← h.room]
    exact h.setRoom (.stand t id standing) (fun _ _ hm => hm) rfl rfl
  | work lane => exact h.work hs lane
  | drain ht =>
    refine ⟨_, .inr (.drain t), congrArg (fun r => r.drain.1) h.room, ?_, h.composed⟩
    intro ps hps
    cases hps
    rw [← h.room]
    exact List.mem_cons_self
  | handOff ps ht => exact h.handOff ht
  | look hl => exact h.stay rfl (fun _ _ hm => hm) rfl
  | note v hv hl => exact h.stay rfl (fun _ _ hm => hm) rfl
  | copy v hv => exact h.stay rfl (fun _ _ hm => hm) rfl
  | draft v hv => exact h.withFiles _ _
  | publish v hv => exact h.withFiles _ _
  | others files => exact h.withFiles files s.saver

/-- Whatever a server does, a transcript tells of it. -/
theorem exists_transcript_of_run {h : Host} {fs : FileSystem} (hs : start h c fs = .ok server)
    (hm : c.maxClients ≤ maxWord64) (hr : Run server s) :
    ∃ t, Transcript.Reachable t ∧ s.Told t := by
  induction hr with
  | refl =>
    obtain ⟨-, -, canvas, -, rfl⟩ := start_eq_ok_iff.1 hs
    refine ⟨_, .start rfl hm, rfl, nofun, fun k payload hmem => ?_⟩
    rw [Lanes.isIdle_start c.workers c.queueCapacity k] at hmem
    cases hmem
  | step hr hst ih =>
    obtain ⟨t, ht, htold⟩ := ih
    obtain ⟨t', rfl | hst', htold'⟩ := hst.told (tidy_of_run hs hr) htold
    · exact ⟨t', ht, htold'⟩
    · exact ⟨t', ht.step hst', htold'⟩

theorem exists_gathering_of_run {h : Host} {fs : FileSystem} (hs : start h c fs = .ok server)
    (hm : c.maxClients ≤ maxWord64) (hr : Run server s) :
    ∃ g, Gathering.Reachable g ∧ g.room = s.room := by
  obtain ⟨t, ht, htold⟩ := exists_transcript_of_run hs hm hr
  obtain ⟨g, hg, hroom, -⟩ := Transcript.exists_gathering ht
  exact ⟨g, hg, hroom.trans htold.room⟩

end Server

namespace Live
open Connection

variable {l : Live}

theorem room_setRoom (l : Live) (room : Room) : (l.setRoom room).room = room := rfl

/-- The batches of a visit, and all that it queues, are so many steps. -/
theorem Reachable.visited (h : Reachable l) {id : Nat} {c : Connection}
    (hm : l.room.member? id = some c) (site : Option Site) (bytes : Bytes) :
    ∃ l', Reachable l' ∧ l'.lanes = l.lanes ∧ l'.drained = l.drained ∧
      l'.room = l.room.put (c.visited l.room.canvas site bytes).1 := by
  obtain ⟨hc, hid, hl⟩ := Room.mem_of_member? hm
  obtain ⟨hcon, -⟩ := Option.filter_eq_some_iff.1 hm
  rcases visited_cases hl l.room.canvas site bytes with
    ⟨said, hsaid, hq, ha⟩ | ⟨b, e, said, hrest, hbl, hpic, hea, hsaid, hq⟩
  · exact ⟨_, h.step (.answer l c _ said hc hsaid hq ha), rfl, rfl, rfl⟩
  · have hdi := (visited_spec l.room.canvas site hl bytes).1
    have hbi : b.id = c.id := hrest.1.id
    have hei : e.id = c.id := hq.id.symm.trans hdi
    -- Up to the picture.
    have hone : Reachable (l.answer b []) := h.step (.answer l c b [] hc nofun hrest.1 hrest.2)
    have htwo := hone.step (.welcome _ id b (Room.member?_put hcon (hbi.trans hid) hbl))
    have hroom : ((l.answer b []).welcome b).room = (l.room.put b).put e := by
      have hpic' : (Visit.mk (l.answer b []).room.canvas b #[]).sendPicture =
        (⟨l.room.canvas, e, #[]⟩, none) := hpic
      rw [welcome, hpic']
      rfl
    have hmem : ((l.answer b []).welcome b).room.connection? id = some e := by
      rw [hroom]
      exact Room.connection?_put (Room.connection?_put hcon (hbi.trans hid)) (hei.trans hid)
    refine ⟨_, htwo.step (.answer _ e _ said (Room.mem_of_connection? hmem).1 hsaid hq
      fun _ => hea), rfl, rfl, ?_⟩
    change ((l.answer b []).welcome b).room.put _ = _
    rw [hroom, Room.put_put _ (hei.trans hdi.symm), Room.put_put _ (hbi.trans hdi.symm)]

theorem Reachable.receive (h : Reachable l) (id : Nat) (bytes : Bytes) :
    ∃ l', Reachable l' ∧ l'.lanes = l.lanes ∧ l'.drained = l.drained ∧
      l'.room = (l.room.receive id bytes).1 := by
  cases hm : l.room.member? id with
  | none =>
    rw [Room.receive, hm]
    exact ⟨l, h, rfl, rfl, rfl⟩
  | some c =>
    obtain ⟨l', h', hlanes, hdrained, hroom⟩ := h.visited hm l.room.site bytes
    obtain ⟨ms, hcanvas, -⟩ := (Visit.mk l.room.canvas c #[]).obeys_receive l.room.site bytes
    refine ⟨_, h'.step (.paint l' (ms.flatMap Message.pixels)), hlanes, hdrained, ?_⟩
    rw [Room.receive_eq_visited hm, hcanvas, paint, room_setRoom, hroom]
    rfl

end Live

namespace Server

variable {s s' server : Server} {c : Config} {l : Live}

/-- The state is of the same room, the same lanes and the same ticker. -/
structure Lives (s : Server) (l : Live) : Prop where
  room : l.room = s.room
  lanes : l.lanes = s.service.lanes
  drained : l.drained = s.ticker

theorem Lives.service (h : s.Lives l) : s.service = l.toService := by
  obtain ⟨⟨room, lanes⟩, drained, queued⟩ := l
  obtain ⟨rfl, rfl, -⟩ := h
  rfl

theorem Lives.offer (h : s.Lives l) (hl : Live.Reachable l) (task : Task) {id : Nat}
    (hid : task.connection? = some id) (n : Nat) :
    ∃ l', Live.Reachable l' ∧ Lives { (s.offer task).1 with nextId := n } l' := by
  change ∃ l', _ ∧ Lives { s with service := (s.service.offer task).1, nextId := n } l'
  rw [h.service]
  rcases l.toService.offer_cases task with ⟨lanes, hs, ho⟩ | ho | ⟨id, reason, -, ho⟩
  · rw [ho]
    exact ⟨_, hl.step (.submit l task _ lanes hid hs), rfl, rfl, h.drained⟩
  · rw [ho]
    exact ⟨l, hl, rfl, rfl, h.drained⟩
  · rw [ho]
    exact ⟨_, hl.step (.teardown l id reason), rfl, rfl, h.drained⟩

theorem Lives.work (h : s.Lives l) (hl : Live.Reachable l) (hs : s.Tidy) (lane : Nat)
    (hlane : ∀ task ∈ s.service.lanes.tasks lane, s.service.lanes.laneOf task = lane) :
    ∃ l', Live.Reachable l' ∧ Lives { s with service := (s.service.work lane).1 } l' := by
  have hcoming := hs.coming lane
  rw [show s.room = l.room from h.room.symm, show s.service.lanes = l.lanes from h.lanes.symm]
    at hcoming
  rw [← h.lanes] at hlane
  rw [h.service]
  rcases l.toService.work_cases lane with hw | ⟨task, lanes, ht, hw⟩
  · rw [hw]
    exact ⟨l, hl, rfl, rfl, h.drained⟩
  have htask : task ∈ l.lanes.tasks lane := Lanes.mem_tasks_of_take ht
  rw [hw]
  cases task with
  | connect id peer socket =>
    have hn := Room.connection?_eq_none_iff.2 (hcoming id peer socket htask).2.1
    exact ⟨_, (hl.step (.take l lane _ id lanes rfl ht)).step (.accept _ id peer socket hn), rfl,
      rfl, h.drained⟩
  | data id bytes =>
    obtain ⟨l', hl', hlanes, hdrained, hroom⟩ :=
      (hl.step (.take l lane _ id lanes rfl ht)).receive id bytes
    exact ⟨l', hl', hroom, hlanes, hdrained.trans h.drained⟩
  | hangUp id =>
    obtain ⟨reason, hreason⟩ := l.room.exists_hangUp id
    exact ⟨_, (hl.step (.take l lane _ id lanes rfl ht)).step (.teardown _ id reason),
      hreason.symm, rfl, h.drained⟩
  | broadcast payload =>
    -- Deltas wait in the first lane only.
    obtain rfl : 0 = lane := hlane _ htask
    exact ⟨_, hl.step (.broadcast l payload lanes ht), rfl, rfl, h.drained⟩

theorem Lives.flush (h : s.Lives l) (hl : Live.Reachable l) (id : Nat) :
    ∃ l', Live.Reachable l' ∧ Lives (s.withRoom (s.room.modify id Connection.writable).1) l' := by
  rw [← h.room]
  unfold Room.modify
  split
  · exact ⟨l, hl, rfl, h.lanes, h.drained⟩
  · rename_i c hm
    obtain ⟨hc, -, hlisted⟩ := Room.mem_of_member? hm
    obtain ⟨hq, ha⟩ := Connection.rests_writable hlisted
    exact ⟨_, hl.step (.answer l c c.writable.1 [] hc nofun hq ha), rfl, h.lanes, h.drained⟩

theorem Step.lives (hst : Step s s') (hs : s.Tidy) (hlane : ∀ k, ∀ task ∈ s.service.lanes.tasks k,
    s.service.lanes.laneOf task = k) (h : s.Lives l) (hl : Live.Reachable l) :
    ∃ l', Live.Reachable l' ∧ s'.Lives l' := by
  have hfiles : ∀ files saver, ∃ l', Live.Reachable l' ∧
      Lives { s.withFiles files with saver } l' := fun files saver =>
    ⟨_, hl.step (.refile l files), congrArg (Room.withFiles · files) h.room, h.lanes, h.drained⟩
  cases hst with
  | arrive peer socket hsock => exact h.offer hl _ rfl _
  | read id bytes => exact h.offer hl (.data id bytes) rfl s.nextId
  | readEnd id => exact h.offer hl (.hangUp id) rfl s.nextId
  | flush id => exact h.flush hl id
  | writable =>
    exact ⟨_, hl.step (.writable l), congrArg (fun r => r.writableAll.1) h.room, h.lanes, h.drained⟩
  | stand id standing =>
    exact ⟨_, hl.step (.stand l id standing), congrArg (fun r => r.stand id standing) h.room,
      h.lanes, h.drained⟩
  | work lane => exact h.work hl hs lane (hlane lane)
  | drain ht =>
    exact ⟨_, hl.step (.drain l (h.drained.trans ht)),
      congrArg (fun r => r.drain.1) h.room, h.lanes,
      congrArg (fun r : Room => some r.drain.2) h.room⟩
  | handOff ps ht =>
    refine ⟨_, hl.step (.handOff l ps (h.drained.trans ht)), ?_, ?_, rfl⟩
    · exact congrArg (fun v : Service => (v.room.handOff v.lanes ps).1) h.service.symm
    · exact congrArg (fun v : Service => (v.room.handOff v.lanes ps).2.1) h.service.symm
  | look hl' => exact ⟨l, hl, h.room, h.lanes, h.drained⟩
  | note v hv hl' => exact ⟨l, hl, h.room, h.lanes, h.drained⟩
  | copy v hv => exact ⟨l, hl, h.room, h.lanes, h.drained⟩
  | draft v hv => exact hfiles _ _
  | publish v hv => exact hfiles _ _
  | others files => exact hfiles files s.saver

/-- Whatever a server does, there is a state of the same room and the same lanes that tells what
each of the clients was queued. -/
theorem exists_live_of_run {h : Host} {fs : FileSystem} (hs : start h c fs = .ok server)
    (hm : c.maxClients ≤ maxWord64) (hr : Run server s) : ∃ l, Live.Reachable l ∧ s.Lives l := by
  induction hr with
  | refl =>
    refine ⟨_, .start (Live.fresh_of_start hs hm), rfl, rfl, ?_⟩
    obtain ⟨-, -, canvas, -, rfl⟩ := start_eq_ok_iff.1 hs
    rfl
  | step hr hst ih =>
    obtain ⟨l, hl, hlives⟩ := ih
    exact hst.lives (tidy_of_run hs hr) (fun k _ => laneOf_of_run hs hr) hlives hl

end Server
namespace Saver

variable {v : Saver}

theorem file_note (v : Saver) (c : Canvas) : (v.note c).file = v.file := by
  unfold note
  split
  · split <;> rfl
  · rfl

theorem file_copy (v : Saver) (c : Canvas) : (v.copy c).file = v.file := by
  unfold copy
  split <;> rfl

theorem file_settle (v : Saver) (version cells : Nat) (result : Except (List String) Unit) :
    (v.settle version cells result).1.file = v.file := by
  cases result <;> rfl

theorem file_draft (v : Saver) (fs : FileSystem) : (v.draft fs).1.file = v.file := by
  unfold draft
  split
  · split
    · rfl
    · exact v.file_settle _ _ _
  · rfl

theorem file_publish (v : Saver) (fs : FileSystem) : (v.publish fs).1.file = v.file := by
  unfold publish
  split
  · split <;> exact v.file_settle _ _ _
  · rfl

theorem note_of_busy (h : v.stage ≠ .waiting) (c : Canvas) : v.note c = v := by
  unfold note
  split
  · exact absurd ‹_› h
  · rfl

theorem copy_of_waiting (h : v.stage = .waiting) (c : Canvas) : v.copy c = v := by
  rw [copy, h]

theorem draft_of_waiting (h : v.stage = .waiting) (fs : FileSystem) : v.draft fs = (v, fs, []) := by
  rw [draft, h]

theorem publish_of_waiting (h : v.stage = .waiting) (fs : FileSystem) :
    v.publish fs = (v, fs, []) := by
  rw [publish, h]

end Saver

theorem Room.exists_paintAll_perform (r : Room) (task : Task) :
    ∃ ps, (r.perform task).1.canvas = (r.canvas.paintAll ps).1 := by
  cases task with
  | connect id peer socket => exact ⟨[], r.canvas_accept id peer socket⟩
  | data id bytes =>
    cases hm : r.member? id with
    | none => exact ⟨[], by rw [perform, receive, hm]; rfl⟩
    | some c =>
      obtain ⟨ms, hcanvas, -⟩ := (Visit.mk r.canvas c #[]).obeys_receive r.site bytes
      exact ⟨ms.flatMap Message.pixels, by rw [perform, receive_eq_visited hm, hcanvas]⟩
  | hangUp id => exact ⟨[], r.canvas_modify id _⟩
  | broadcast payload => exact ⟨[], rfl⟩

namespace Upkeep

theorem Run.trans {s t u : Upkeep} (h : Run s t) (h' : Run t u) : Run s u := by
  induction h' with
  | refl => exact h
  | step _ ht ih => exact ih.step ht

theorem exists_run_paintAll (u : Upkeep) (ps : List Pixel) :
    ∃ painted, Run u { u with canvas := (u.canvas.paintAll ps).1, painted } := by
  rw [Canvas.fst_paintAll]
  induction ps generalizing u with
  | nil => exact ⟨u.painted, .refl u⟩
  | cons p ps ih =>
    rw [List.foldl_cons]
    cases hp : u.canvas.paint p with
    | error e => exact ih u
    | ok canvas =>
      obtain ⟨painted, hr⟩ := ih { u with canvas, painted := u.painted ++ [p] }
      exact ⟨painted, ((Run.refl u).step (.paint u p canvas hp)).trans hr⟩

end Upkeep

namespace Server

variable {s s' t server : Server} {c : Config} {u : Upkeep}

/-- Steps in which other programs leave the file of the snapshot and its draft as they are. -/
inductive Undisturbed (file : SnapshotFile) : Server → Server → Prop
  | refl (s : Server) : Undisturbed file s s
  | step {s t t' : Server} (h : Undisturbed file s t) (ht : Step t t')
    (hf : ∀ files, t' = t.withFiles files → files.read file.path = t.files.read file.path ∧
      files.read file.draftPath = t.files.read file.draftPath) : Undisturbed file s t'

/-- The loop saves the same canvas to the same files, and knows what the saver knows once that has
looked at the canvas. -/
structure Kept (s : Server) (u : Upkeep) : Prop where
  canvas : u.canvas = s.canvas
  files : u.files = s.files
  saver : ∃ v, s.saver = some v ∧ v.file = u.file ∧
    (s.looked = true ∧ u.saver = some v ∨
      s.looked = false ∧ u.saver = none ∧ v.stage = .waiting)

theorem Kept.of_canvas (h : s.Kept u) (hf : s'.files = s.files) (hv : s'.saver = s.saver)
    (hl : s'.looked = s.looked) (painted : List Pixel)
    (hr : Upkeep.Run u { u with canvas := s'.canvas, painted }) :
    ∃ u', Upkeep.Run u u' ∧ u'.file = u.file ∧ s'.Kept u' := by
  refine ⟨_, hr, rfl, rfl, h.files.trans hf.symm, ?_⟩
  rw [hv, hl]
  exact h.saver

theorem Kept.of_same (h : s.Kept u) (hc : s'.canvas = s.canvas) (hf : s'.files = s.files)
    (hv : s'.saver = s.saver) (hl : s'.looked = s.looked) :
    ∃ u', Upkeep.Run u u' ∧ u'.file = u.file ∧ s'.Kept u' := by
  refine h.of_canvas hf hv hl u.painted ?_
  rw [hc, ← h.canvas]
  exact .refl u

theorem Kept.of_saver (h : s.Kept u) {v w : Saver} {files : FileSystem} (hv : s.saver = some v)
    (hstep : u.saver = some v →
      Upkeep.Run u { u with saver := some w, files })
    (hidle : s.looked = false → v.stage = .waiting → w = v ∧ files = s.files) (hw : w.file = v.file)
    (hc : s'.canvas = s.canvas) (hf : s'.files = files) (hs : s'.saver = some w)
    (hl : s'.looked = s.looked) : ∃ u', Upkeep.Run u u' ∧ u'.file = u.file ∧ s'.Kept u' := by
  obtain ⟨v', hv', hfile, hk⟩ := h.saver
  obtain rfl := Option.some.inj (hv.symm.trans hv')
  rcases hk with ⟨hlook, hu⟩ | ⟨hlook, hu, hwait⟩
  · exact ⟨_, hstep hu, rfl, h.canvas.trans hc.symm, hf.symm, w, hs, hw.trans hfile,
      .inl ⟨hl.trans hlook, rfl⟩⟩
  · obtain ⟨rfl, rfl⟩ := hidle hlook hwait
    exact ⟨u, .refl u, rfl, h.canvas.trans hc.symm, h.files.trans hf.symm, w, hs, hfile,
      .inr ⟨hl.trans hlook, hu, hwait⟩⟩

theorem canvas_offer (s : Server) (task : Task) : (s.offer task).1.canvas = s.canvas := by
  change (s.service.offer task).1.room.canvas = s.service.room.canvas
  rcases s.service.offer_cases task with ⟨l, -, ho⟩ | ho | ⟨id, reason, -, ho⟩
  · rw [ho]
  · rw [ho]
  · rw [ho]
    exact s.service.room.canvas_modify id _

theorem Step.kept (hst : Step s s') (hf : ∀ files, s' = s.withFiles files →
      files.read u.file.path = s.files.read u.file.path ∧
        files.read u.file.draftPath = s.files.read u.file.draftPath) (h : s.Kept u) :
    ∃ u', Upkeep.Run u u' ∧ u'.file = u.file ∧ s'.Kept u' := by
  have hone : ∀ {u'}, Upkeep.Step u u' → Upkeep.Run u u' := fun hs => (Upkeep.Run.refl u).step hs
  cases hst with
  | arrive peer socket hsock => exact h.of_same (s.canvas_offer _) rfl rfl rfl
  | read id bytes => exact h.of_same (s.canvas_offer _) rfl rfl rfl
  | readEnd id => exact h.of_same (s.canvas_offer _) rfl rfl rfl
  | flush id => exact h.of_same (s.room.canvas_modify id _) rfl rfl rfl
  | writable => exact h.of_same rfl rfl rfl rfl
  | stand id standing => exact h.of_same (s.room.canvas_stand id standing) rfl rfl rfl
  | work lane =>
    rcases s.service.work_cases lane with hw | ⟨task, l, -, hw⟩
    · rw [hw]
      exact h.of_same rfl rfl rfl rfl
    · obtain ⟨ps, hps⟩ := s.service.room.exists_paintAll_perform task
      obtain ⟨painted, hr⟩ := u.exists_run_paintAll ps
      refine h.of_canvas rfl rfl rfl painted ?_
      have hc : (s.service.work lane).1.room.canvas = (s.canvas.paintAll ps).1 := by
        rw [hw]
        exact hps
      change Upkeep.Run u { u with canvas := (s.service.work lane).1.room.canvas, painted }
      rw [hc, ← h.canvas]
      exact hr
  | drain ht =>
    refine h.of_canvas rfl rfl rfl u.painted ?_
    change Upkeep.Run u { u with canvas := s.canvas.drain.1, painted := u.painted }
    rw [← h.canvas]
    exact hone (.drain u)
  | handOff ps ht =>
    rcases s.room.handOff_cases s.service.lanes ps with ⟨-, hr⟩ | ⟨-, _, _, -, hr⟩ | ⟨_, hr⟩
    · exact h.of_same (congrArg (fun x => x.1.canvas) hr) rfl rfl rfl
    · exact h.of_same (congrArg (fun x => x.1.canvas) hr) rfl rfl rfl
    · refine h.of_canvas rfl rfl rfl u.painted ?_
      have hc : (s.handOff ps).canvas = s.canvas.restore ps := congrArg (fun x => x.1.canvas) hr
      rw [hc, ← h.canvas]
      exact hone (.restore u ps)
  | look hl =>
    obtain ⟨v, hv, hfile, ⟨hlook, -⟩ | ⟨-, hu, -⟩⟩ := h.saver
    · exact absurd (hl.symm.trans hlook) Bool.false_ne_true
    · refine ⟨_, hone (.look u hu), rfl, h.canvas, h.files, .start v.file s.canvas, ?_, hfile, ?_⟩
      · exact congrArg (Option.map _) hv
      · rw [hfile, ← h.canvas]
        exact .inl ⟨rfl, rfl⟩
  | note v hv hl =>
    refine h.of_saver (w := v.note s.canvas) hv (fun hu => ?_)
      (fun hn => absurd (hl.symm.trans hn) nofun) (v.file_note _) rfl rfl rfl rfl
    rw [← h.canvas, ← h.files]
    by_cases hw : v.stage = .waiting
    · exact hone (.note u v hu hw)
    · rw [Saver.note_of_busy hw, ← hu]
      exact .refl u
  | copy v hv =>
    refine h.of_saver (w := v.copy s.canvas) hv (fun hu => ?_)
      (fun _ hw => ⟨Saver.copy_of_waiting hw _, rfl⟩) (v.file_copy _) rfl rfl rfl rfl
    rw [← h.canvas, ← h.files]
    exact hone (.copy u v hu)
  | draft v hv =>
    refine h.of_saver (w := (v.draft s.files).1) hv (fun hu => ?_)
      (fun _ hw => by rw [Saver.draft_of_waiting hw]; exact ⟨rfl, rfl⟩) (v.file_draft _)
      rfl rfl rfl rfl
    rw [← h.files]
    exact hone (.draft u v hu)
  | publish v hv =>
    refine h.of_saver (w := (v.publish s.files).1) hv (fun hu => ?_)
      (fun _ hw => by rw [Saver.publish_of_waiting hw]; exact ⟨rfl, rfl⟩) (v.file_publish _) rfl rfl
      rfl rfl
    rw [← h.files]
    exact hone (.publish u v hu)
  | others files =>
    obtain ⟨hr, hd⟩ := hf files rfl
    rw [← h.files] at hr hd
    exact ⟨_, hone (.others u files hr fun _ _ _ _ _ => hd), rfl, h.canvas, rfl, h.saver⟩

/-- Whatever a server does that keeps its canvas in a file, the loop that saves it does the same, as
long as other programs leave that file alone. -/
theorem exists_upkeep_of_run {h : Host} {fs : FileSystem} (hs : start h c fs = .ok server)
    {u : Upkeep} (hu : Upkeep.start? server = some u) (hr : Undisturbed u.file server s) :
    ∃ u', Upkeep.Run u u' ∧ s.Kept u' := by
  have hkept : ∃ u', Upkeep.Run u u' ∧ u'.file = u.file ∧ s.Kept u' := by
    induction hr with
    | refl =>
      obtain ⟨v, hv, rfl⟩ := Option.map_eq_some_iff.1 hu
      obtain ⟨-, -, canvas, -, rfl⟩ := start_eq_ok_iff.1 hs
      obtain ⟨path, -, rfl⟩ := Option.map_eq_some_iff.1 hv
      exact ⟨_, .refl _, rfl, rfl, rfl, _, hv, rfl, .inr ⟨rfl, rfl, rfl⟩⟩
    | step _ hst hf ih =>
      obtain ⟨u', hrun, hfile, hkept⟩ := ih
      obtain ⟨u'', hrun', hfile', hkept'⟩ := hst.kept (hfile ▸ hf) hkept
      exact ⟨u'', hrun.trans hrun', hfile'.trans hfile, hkept'⟩
  obtain ⟨u', hrun, -, hkept⟩ := hkept
  exact ⟨u', hrun, hkept⟩

end Server
end SharedCanvas
