import SharedCanvas.Proofs.Broadcast.Recipients
import SharedCanvas.Proofs.Lanes.Order
import SharedCanvas.Proofs.Server.Load
import SharedCanvas.Proofs.Server.Steps
import SharedCanvas.Proofs.Session.Chunks
import SharedCanvas.Proofs.Session.Confined

namespace SharedCanvas

def Task.newcomer? : Task → Option Nat
  | connect id _ _ => some id
  | _ => none

theorem Task.eq_connect {task : Task} {id : Nat} (h : task.newcomer? = some id) :
    ∃ peer socket, task = .connect id peer socket := by
  cases task with
  | connect i peer socket => exact ⟨peer, socket, by rw [Option.some.inj h]⟩
  | _ => simp [newcomer?] at h

namespace Room

variable {r : Room} {id : Nat}

def ids (r : Room) : List Nat := r.connections.map Connection.id

theorem connection?_eq_none_iff : r.connection? id = none ↔ id ∉ r.ids := by
  rw [connection?, List.find?_eq_none, ids, List.mem_map]
  simp only [beq_iff_eq, not_exists, not_and]

theorem ids_modify (r : Room) (id : Nat) {f : Connection → Connection × List Event} :
    (r.modify id f).1.ids = r.ids := by
  unfold modify
  split
  · rfl
  · exact r.ids_put _

theorem site_modify (r : Room) (id : Nat) {f : Connection → Connection × List Event} :
    (r.modify id f).1.site = r.site := by
  unfold modify
  split <;> rfl

theorem site_stand (r : Room) (id : Nat) (standing : Standing) :
    (r.stand id standing).site = r.site := by
  unfold stand
  split <;> rfl

theorem ids_writableAll (r : Room) : r.writableAll.1.ids = r.ids := by
  change ((r.connections.map _).map _).map _ = r.connections.map _
  rw [List.map_map, List.map_map]
  refine List.map_congr_left fun c _ => ?_
  dsimp only [Function.comp]
  split
  · exact c.stays_writable.id
  · rfl

theorem ids_stand (r : Room) (id : Nat) (standing : Standing) :
    (r.stand id standing).ids = r.ids := by
  unfold stand
  split
  · rfl
  · exact r.ids_put _

theorem ids_handOff (r : Room) (lanes : Lanes) (ps : List Pixel) :
    (r.handOff lanes ps).1.ids = r.ids := by
  rcases r.handOff_cases lanes ps with ⟨-, h⟩ | ⟨-, _, _, -, h⟩ | ⟨_, h⟩ <;> rw [h]
  rfl

theorem ids_perform (r : Room) (task : Task) :
    (r.perform task).1.ids = r.ids ∨ ∃ id, task.newcomer? = some id ∧
      (r.perform task).1.ids = r.ids ++ [id] := by
  cases task with
  | connect id peer socket =>
    rcases r.accept_cases id peer socket with h | ⟨-, d, hd, h⟩
    · exact .inl (congrArg ids h)
    · refine .inr ⟨id, rfl, (congrArg ids h).trans ?_⟩
      rw [ids, List.map_append, List.map_singleton, hd.id_eq, ids]
  | data id bytes =>
    left
    change (r.receive id bytes).1.ids = r.ids
    unfold receive
    split
    · rfl
    · exact ids_put _ _
  | hangUp id => exact .inl (r.ids_modify id)
  | broadcast payload => exact .inl (r.ids_fanOut _)

theorem teardown_spec (r : Room) (id : Nat) (reason : Reason) :
    (r.teardown id reason).1.canvas = r.canvas ∧ (r.teardown id reason).1.member? id = none ∧
      ∀ i ≠ id, (r.teardown id reason).1.connection? i = r.connection? i := by
  unfold teardown modify
  split
  · rename_i h
    exact ⟨rfl, h, fun _ _ => rfl⟩
  · rename_i c h
    obtain ⟨hc, hl⟩ := Option.filter_eq_some_iff.1 h
    have hi := (mem_of_connection? hc).2
    dsimp only
    rw [Connection.teardown_of_listed hl]
    refine ⟨rfl, ?_, fun i hne => connection?_put_of_ne ?_⟩
    · rw [member?, connection?_put hc (c.id_release.trans hi), Connection.release_eq]
      rfl
    · rw [c.id_release, hi]
      exact hne

/-- What becomes of a task that is turned away: one connection is torn down, or nothing happens. -/
theorem turnAway_cases (r : Room) (rejection : Rejection Task) :
    (r.turnAway rejection).1 = r ∨ ∃ id reason, rejection.item.connection? = some id ∧
      (r.turnAway rejection).1 = (r.teardown id reason).1 := by
  unfold turnAway
  split
  · exact .inl rfl
  · rename_i id bytes h
    exact .inr ⟨id, _, by rw [h]; rfl, rfl⟩
  · rename_i id h
    exact .inr ⟨id, _, by rw [h]; rfl, rfl⟩
  · exact .inl rfl

end Room

namespace Service

variable {s : Service} {task : Task} {r : Rejection Task}

theorem offer_of_ok {l : Lanes} (h : s.lanes.submit task = .ok l) :
    (s.offer task).1 = ⟨s.room, l⟩ := by
  rw [offer, submit, h]
  rfl

theorem offer_of_error (h : s.lanes.submit task = .error r) :
    (s.offer task).1 = ⟨(s.room.turnAway r).1, s.lanes⟩ := by
  rw [offer, submit, h]
  rfl

theorem offer_cases (s : Service) (task : Task) :
    (∃ l, s.lanes.submit task = .ok l ∧ (s.offer task).1 = ⟨s.room, l⟩) ∨ (s.offer task).1 = s ∨
      ∃ id reason, task.connection? = some id ∧
        (s.offer task).1 = ⟨(s.room.teardown id reason).1, s.lanes⟩ := by
  cases h : s.lanes.submit task with
  | ok l => exact .inl ⟨l, rfl, offer_of_ok h⟩
  | error r =>
    right
    rw [offer_of_error h]
    rcases s.room.turnAway_cases r with ht | ⟨id, reason, hi, ht⟩
    · exact .inl (by rw [ht])
    · exact .inr ⟨id, reason, Lanes.item_of_submit h ▸ hi, by rw [ht]⟩

theorem work_cases (s : Service) (lane : Nat) :
    (s.work lane).1 = s ∨ ∃ task l, s.lanes.take lane = some (task, l) ∧
      (s.work lane).1 = ⟨(s.room.perform task).1, l⟩ := by
  unfold work
  split
  · exact .inl rfl
  · rename_i task l h
    exact .inr ⟨task, l, h, rfl⟩

theorem lanes_work (s : Service) (lane : Nat) :
    (s.work lane).1.lanes = ((s.lanes.take lane).map Prod.snd).getD s.lanes := by
  unfold work
  cases s.lanes.take lane with
  | none => rfl
  | some x => rfl

/-- What a lane does not take is lost, and nobody else is harmed by that. Whoever sent the bytes
that are lost, or has hung up, is not a member any more; a client that comes is not taken in. -/
theorem offer_of_refused (h : s.lanes.submit task = .error r) :
    (s.offer task).1.lanes = s.lanes ∧ (s.offer task).1.room.canvas = s.room.canvas ∧
      (task.newcomer?.isSome = true → (s.offer task).1.room = s.room) ∧
      (∀ i, task.connection? ≠ some i →
        (s.offer task).1.room.connection? i = s.room.connection? i) ∧
      ∀ id, task.connection? = some id → task.newcomer? = none →
        (s.offer task).1.room.member? id = none := by
  have hr := Lanes.item_of_submit h
  rw [offer_of_error h, Room.turnAway, hr]
  cases task with
  | connect id peer socket =>
    exact ⟨rfl, rfl, fun _ => rfl, fun _ _ => rfl, fun i _ hn => absurd hn (Option.some_ne_none id)⟩
  | data id bytes =>
    obtain ⟨hc, hm, hi⟩ := s.room.teardown_spec id .queueFull
    refine ⟨rfl, hc, nofun, fun i hne => hi i fun he => hne (congrArg some he.symm), ?_⟩
    intro i he _
    exact Option.some.inj he ▸ hm
  | hangUp id =>
    obtain ⟨hc, hm, hi⟩ := s.room.teardown_spec id .peerClosed
    refine ⟨rfl, hc, nofun, fun i hne => hi i fun he => hne (congrArg some he.symm), ?_⟩
    intro i he _
    exact Option.some.inj he ▸ hm
  | broadcast payload => exact ⟨rfl, rfl, nofun, fun _ _ => rfl, nofun⟩

theorem upholds_site (site : Option Site) : Upholds fun r => r.site = site := by
  refine ⟨?_, ?_, fun h => h, ?_⟩
  · intro r task h
    rw [← h]
    cases task with
    | connect id peer socket =>
      rw [Room.perform]
      rcases r.accept_cases id peer socket with hr | ⟨-, _, -, hr⟩ <;> rw [hr]
    | data id bytes => exact r.site_receive id bytes
    | hangUp id => exact r.site_modify id
    | broadcast payload => rfl
  · intro r rejection h
    rw [← h]
    rcases r.turnAway_cases rejection with hr | ⟨id, reason, -, hr⟩
    · rw [hr]
    · rw [hr]
      exact r.site_modify id
  · intro r lanes ps h
    rw [← h]
    rcases r.handOff_cases lanes ps with ⟨-, hr⟩ | ⟨-, _, _, -, hr⟩ | ⟨_, hr⟩ <;> rw [hr]

end Service

namespace Server

variable {s t server : Server} {c : Config}

/-- What is served is read from the files as they are now, whoever changed them last. -/
def Serves (c : Config) (s : Server) : Prop :=
  s.room.site = c.staticDir.map fun dir => ⟨Bytes.ofString dir, s.files⟩

theorem Serves.withFiles (h : s.Serves c) (files : FileSystem) : (s.withFiles files).Serves c := by
  change s.room.site.map _ = _
  rw [h, Option.map_map]
  rfl

theorem Step.serves (hst : Step s t) (h : s.Serves c) : t.Serves c := by
  have hu := Service.upholds_site (c.staticDir.map fun dir => ⟨Bytes.ofString dir, s.files⟩)
  cases hst with
  | arrive peer socket hs => exact hu.offer h _
  | read id bytes => exact hu.offer h _
  | readEnd id => exact hu.offer h _
  | flush id => exact (s.room.site_modify id).trans h
  | writable => exact h
  | stand id standing => exact (s.room.site_stand id standing).trans h
  | work lane => exact hu.work h lane
  | drain ht => exact h
  | handOff ps ht => exact hu.handOff s.service.lanes ps h
  | look hl => exact h
  | note v hv hl => exact h
  | copy v hv => exact h
  | draft v hv => exact h.withFiles _
  | publish v hv => exact h.withFiles _
  | others files => exact h.withFiles files

theorem serves_of_run {h : Host} {fs : FileSystem} (hs : start h c fs = .ok server)
    (hr : Run server s) : s.Serves c := by
  induction hr with
  | refl =>
    obtain ⟨-, -, canvas, -, rfl⟩ := start_eq_ok_iff.1 hs
    rfl
  | step _ hst ih => exact hst.serves ih

theorem exists_workload_offer {w : Workload} (h : w.lanes = s.service.lanes) (task : Task) :
    ∃ ops, (w.run ops).lanes = (s.offer task).1.service.lanes := by
  change ∃ ops, _ = (s.service.offer task).1.lanes
  cases hl : s.service.lanes.submit task with
  | ok l =>
    refine ⟨[.submit task], ?_⟩
    rw [Service.offer_of_ok hl]
    exact congrArg Workload.lanes (Workload.perform_accepted (h ▸ hl))
  | error r =>
    rw [Service.offer_of_error hl]
    exact ⟨[], h⟩

theorem Step.exists_workload (hst : Step s t) {w : Workload} (h : w.lanes = s.service.lanes) :
    ∃ ops, (w.run ops).lanes = t.service.lanes := by
  cases hst with
  | arrive peer socket hs => exact exists_workload_offer h _
  | read id bytes => exact exists_workload_offer h _
  | readEnd id => exact exists_workload_offer h _
  | work lane =>
    refine ⟨[.work lane], ?_⟩
    change (w.service.work lane).1.lanes = (s.service.work lane).1.lanes
    rw [Service.lanes_work, Service.lanes_work, show w.service.lanes = s.service.lanes from h]
  | handOff ps ht =>
    change ∃ ops, _ = (s.room.handOff s.service.lanes ps).2.1
    rcases s.room.handOff_cases s.service.lanes ps with ⟨-, hr⟩ | ⟨-, l, _, hl, hr⟩ | ⟨_, hr⟩
    · rw [hr]
      exact ⟨[], h⟩
    · rw [hr]
      exact ⟨[.submit _], congrArg Workload.lanes (Workload.perform_accepted (h ▸ hl))⟩
    · rw [hr]
      exact ⟨[], h⟩
  | _ => exact ⟨[], h⟩

/-- The lanes of a server have come about by operations of the producers and the workers. -/
theorem exists_workload_of_run {h : Host} {fs : FileSystem} (hs : start h c fs = .ok server)
    (hr : Run server s) : ∃ ops,
      ((Workload.start server.room c.workers c.queueCapacity).run ops).lanes = s.service.lanes := by
  induction hr with
  | refl =>
    obtain ⟨-, -, canvas, -, rfl⟩ := start_eq_ok_iff.1 hs
    exact ⟨[], rfl⟩
  | step _ hst ih =>
    obtain ⟨ops, hops⟩ := ih
    obtain ⟨more, hmore⟩ := hst.exists_workload hops
    exact ⟨ops ++ more, by rw [Workload.run_append, hmore]⟩

theorem laneOf_of_run {h : Host} {fs : FileSystem} (hs : start h c fs = .ok server)
    (hr : Run server s) {k : Nat} {task : Task} (hm : task ∈ s.service.lanes.tasks k) :
    s.service.lanes.laneOf task = k := by
  obtain ⟨ops, hops⟩ := exists_workload_of_run hs hr
  rw [← hops] at hm ⊢
  exact ((Workload.isOrderly_start _ _ _).run ops).laneOf_eq hm

/-- Ids are given in turn, and whoever still waits to be taken in has an id that nobody else has. -/
structure Tidy (s : Server) : Prop where
  given : ∀ id ∈ s.room.ids, id < s.nextId
  coming : ∀ k id peer socket, .connect id peer socket ∈ s.service.lanes.tasks k →
    id < s.nextId ∧ id ∉ s.room.ids ∧ socket.received = []
  once : ∀ k, ((s.service.lanes.tasks k).filterMap Task.newcomer?).Nodup

theorem Tidy.of_ids (h : s.Tidy) (hi : t.room.ids = s.room.ids)
    (hl : t.service.lanes = s.service.lanes) (hn : t.nextId = s.nextId) : t.Tidy := by
  refine ⟨?_, ?_, ?_⟩
  · rw [hi, hn]
    exact h.given
  · rw [hi, hl, hn]
    exact h.coming
  · rw [hl]
    exact h.once

theorem Tidy.submit (h : s.Tidy) {task : Task} {l : Lanes}
    (hl : s.service.lanes.submit task = .ok l) {n : Nat} (hn : s.nextId ≤ n)
    (hnew : ∀ id peer socket, task = .connect id peer socket →
      id = s.nextId ∧ s.nextId < n ∧ socket.received = []) :
    Tidy { s with service := ⟨s.room, l⟩, nextId := n } := by
  refine ⟨fun id hi => Nat.lt_of_lt_of_le (h.given id hi) hn, ?_, ?_⟩
  · intro k id peer socket hu
    rcases Lanes.mem_tasks_submit hl hu with hu | hu
    · obtain ⟨hlt, hr⟩ := h.coming k id peer socket hu
      exact ⟨Nat.lt_of_lt_of_le hlt hn, hr⟩
    · obtain ⟨rfl, hlt, hr⟩ := hnew id peer socket hu.symm
      exact ⟨hlt, fun hi => absurd (h.given _ hi) (Nat.lt_irrefl _), hr⟩
  · intro k
    change ((l.tasks k).filterMap Task.newcomer?).Nodup
    rw [Lanes.tasks_submit hl]
    split
    · rw [List.filterMap_append]
      cases hc : task.newcomer? with
      | none =>
        rw [List.filterMap_cons_none hc, List.filterMap_nil, List.append_nil]
        exact h.once k
      | some id =>
        obtain ⟨peer, socket, rfl⟩ := Task.eq_connect hc
        rw [List.filterMap_cons_some hc, List.filterMap_nil]
        refine List.nodup_append.2 ⟨h.once k, List.nodup_singleton _, ?_⟩
        -- Everyone who waits was given an id before.
        rintro a ha b hb rfl
        obtain ⟨u, hu, hua⟩ := List.mem_filterMap.1 ha
        obtain ⟨peer', socket', rfl⟩ := Task.eq_connect hua
        rw [List.mem_singleton.1 hb, (hnew id peer socket rfl).1] at hu
        exact absurd (h.coming k _ _ _ hu).1 (Nat.lt_irrefl _)
    · exact h.once k

/-- A worker does a task. If it takes a client in, nobody else is left who waits with that id. -/
theorem Tidy.work (h : s.Tidy) (lane : Nat) (hlane : ∀ k, ∀ task ∈ s.service.lanes.tasks k,
    s.service.lanes.laneOf task = k) :
    Tidy { s with service := (s.service.work lane).1 } := by
  rcases s.service.work_cases lane with hw | ⟨task, l, ht, hw⟩
  · rw [hw]
    exact h
  rw [hw]
  have hsub := Lanes.sublist_tasks_take ht
  have htask := Lanes.mem_tasks_of_take ht
  have hids : ∀ i, i ∈ (s.room.perform task).1.ids → i ∈ s.room.ids ∨ task.newcomer? = some i := by
    intro i hi
    rcases s.room.ids_perform task with hr | ⟨id, hid, hr⟩
    · exact .inl (hr ▸ hi)
    · rw [hr] at hi
      rcases List.mem_append.1 hi with hi | hi
      · exact .inl hi
      · exact .inr (List.mem_singleton.1 hi ▸ hid)
  refine ⟨?_, ?_, fun k => (h.once k).sublist ((hsub k).filterMap _)⟩
  · intro i hi
    rcases hids i hi with hi | hi
    · exact h.given i hi
    · obtain ⟨peer, socket, rfl⟩ := Task.eq_connect hi
      exact (h.coming lane i peer socket htask).1
  · intro k id peer socket hu
    obtain ⟨hlt, hid, hr⟩ := h.coming k id peer socket ((hsub k).mem hu)
    refine ⟨hlt, fun hi => ?_, hr⟩
    rcases hids id hi with hi | hi
    · exact hid hi
    · obtain ⟨peer', socket', rfl⟩ := Task.eq_connect hi
      -- Two clients of one id would wait in one lane.
      have hsame : lane = k := (hlane lane _ htask).symm.trans
        (hlane k (.connect id peer socket) ((hsub k).mem hu))
      subst hsame
      have hone := h.once lane
      rw [(Lanes.tasks_take ht).1, List.filterMap_cons_some hi] at hone
      exact (List.nodup_cons.1 hone).1 (List.mem_filterMap.2 ⟨_, hu, rfl⟩)

theorem Tidy.offer (h : s.Tidy) (task : Task) {n : Nat} (hn : s.nextId ≤ n)
    (hnew : ∀ id peer socket, task = .connect id peer socket →
      id = s.nextId ∧ s.nextId < n ∧ socket.received = []) :
    Tidy { (s.offer task).1 with nextId := n } := by
  change Tidy { s with service := (s.service.offer task).1, nextId := n }
  have hlater : Tidy { s with nextId := n } :=
    ⟨fun id hi => Nat.lt_of_lt_of_le (h.given id hi) hn,
      fun k id peer socket hu => (h.coming k id peer socket hu).imp_left
        fun hlt => Nat.lt_of_lt_of_le hlt hn, h.once⟩
  rcases s.service.offer_cases task with ⟨l, hl, ho⟩ | ho | ⟨id, reason, -, ho⟩
  · rw [ho]
    exact h.submit hl hn hnew
  · rw [ho]
    exact hlater
  · rw [ho]
    exact hlater.of_ids (s.room.ids_modify id) rfl rfl

theorem Step.tidy (hst : Step s t) (h : s.Tidy) (hlane : ∀ k, ∀ task ∈ s.service.lanes.tasks k,
    s.service.lanes.laneOf task = k) : t.Tidy := by
  cases hst with
  | arrive peer socket hs =>
    refine h.offer _ (Nat.le_succ _) fun id peer' socket' he => ?_
    cases he
    exact ⟨rfl, Nat.lt_succ_self _, hs⟩
  | read id bytes => exact h.offer (.data id bytes) (Nat.le_refl _) nofun
  | readEnd id => exact h.offer (.hangUp id) (Nat.le_refl _) nofun
  | flush id => exact h.of_ids (s.room.ids_modify id) rfl rfl
  | writable => exact h.of_ids s.room.ids_writableAll rfl rfl
  | stand id standing => exact h.of_ids (s.room.ids_stand id standing) rfl rfl
  | work lane => exact h.work lane hlane
  | drain ht => exact h.of_ids rfl rfl rfl
  | handOff ps ht =>
    rcases s.room.handOff_cases s.service.lanes ps with ⟨-, hr⟩ | ⟨-, l, _, hl, hr⟩ | ⟨_, hr⟩
    · exact h.of_ids (s.room.ids_handOff _ _) (congrArg (fun x => x.2.1) hr) rfl
    · have hsub : Tidy { s with service := ⟨s.room, l⟩, nextId := s.nextId } :=
        h.submit hl (Nat.le_refl _) nofun
      exact hsub.of_ids (s.room.ids_handOff _ _) (congrArg (fun x => x.2.1) hr) rfl
    · exact h.of_ids (s.room.ids_handOff _ _) (congrArg (fun x => x.2.1) hr) rfl
  | look hl => exact h.of_ids rfl rfl rfl
  | note v hv hl => exact h.of_ids rfl rfl rfl
  | copy v hv => exact h.of_ids rfl rfl rfl
  | draft v hv => exact h.of_ids rfl rfl rfl
  | publish v hv => exact h.of_ids rfl rfl rfl
  | others files => exact h.of_ids rfl rfl rfl

theorem tidy_of_run {h : Host} {fs : FileSystem} (hs : start h c fs = .ok server)
    (hr : Run server s) : s.Tidy := by
  induction hr with
  | refl =>
    obtain ⟨-, -, canvas, -, rfl⟩ := start_eq_ok_iff.1 hs
    have hidle := Lanes.isIdle_start c.workers c.queueCapacity
    refine ⟨nofun, fun k id peer socket hm => ?_, fun k => ?_⟩
    · rw [hidle k] at hm
      cases hm
    · rw [hidle k]
      exact List.nodup_nil
  | step hr hst ih => exact hst.tidy ih fun k _ => laneOf_of_run hs hr

end Server
end SharedCanvas
