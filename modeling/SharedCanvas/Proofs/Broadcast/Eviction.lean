import SharedCanvas.Proofs.Broadcast.Convergence
import SharedCanvas.Proofs.Canvas.Accepted

namespace SharedCanvas

namespace Room

def delta (r : Room) : Bytes := Delta.toJson ⟨r.activeCount, r.canvas.announcements⟩

/-- A frame with a delta takes from 24 to 34 bytes for every pixel. -/
theorem length_textFrame_delta (r : Room) :
    38 + 24 * r.canvas.announcements.length ≤ (textFrame r.delta).length ∧
      (r.activeCount ≤ maxWord64 →
        (textFrame r.delta).length ≤ 66 + 34 * r.canvas.announcements.length) := by
  have hl : 2 + r.delta.length ≤ (textFrame r.delta).length ∧
      (textFrame r.delta).length ≤ 10 + r.delta.length :=
    Frame.length_encode_bounds .text r.delta
  have hlow : 36 + 24 * r.canvas.announcements.length ≤ r.delta.length :=
    Delta.le_length_toJson ⟨r.activeCount, r.canvas.announcements⟩
  constructor
  · omega
  · intro hc
    have hup : r.delta.length ≤ 56 + 34 * r.canvas.announcements.length :=
      Delta.length_toJson_le hc
    omega

end Room

namespace Service

variable {s : Service} {lanes : Lanes}

theorem workTimes_of_nil {lane : Nat} (h : s.lanes.tasks lane = []) :
    s.workTimes lane (s.lanes.waiting lane) = (s, []) := by
  rw [s.lanes.waiting_eq, h]
  rfl

theorem foldl_work_of_nil {order : List Nat} (h : ∀ lane ∈ order, s.lanes.tasks lane = [])
    (events : List Event) : order.foldl (fun (s, events) lane =>
      let (s, more) := s.workTimes lane (s.lanes.waiting lane)
      (s, events ++ more)) (s, events) = (s, events) := by
  induction order with
  | nil => rfl
  | cons lane order ih =>
    obtain ⟨hl, ho⟩ := List.forall_mem_cons.1 h
    rw [List.foldl_cons]
    dsimp only
    rw [workTimes_of_nil hl, List.append_nil]
    exact ih ho

theorem workAll_of_submit {task : Task} (room : Room) (h : lanes.IsIdle) {lanes' : Lanes}
    (hl : lanes.submit task = .ok lanes') : ∃ rest : Lanes, rest.IsIdle ∧
      workAll ⟨room, lanes'⟩ = (⟨(room.perform task).1, rest⟩, (room.perform task).2) := by
  have ht : ∀ lane, lanes'.tasks lane = if lanes.laneOf task = lane then [task] else [] := by
    intro lane
    rw [Lanes.tasks_submit hl, h lane]
    rfl
  have hlt : lanes.laneOf task < lanes'.count := by
    obtain ⟨hlt, q, -, hq⟩ := Lanes.queues_of_submit hl
    rw [Lanes.count, hq, Array.size_set]
    exact hlt
  generalize lanes.laneOf task = lane at ht hlt
  have hone : lanes'.tasks lane = [task] := (ht lane).trans (if_pos rfl)
  obtain ⟨rest, hr⟩ := Lanes.exists_take hone
  obtain ⟨h0, hk⟩ := Lanes.tasks_take hr
  have hidle : rest.IsIdle := by
    intro k
    by_cases hz : k = lane
    · rw [hone, List.cons.injEq] at h0
      rw [hz]
      exact h0.2.symm
    · rw [hk k hz, ht k, if_neg (Ne.symm hz)]
  have hw : lanes'.waiting lane = 1 := by
    rw [Lanes.waiting_eq, hone]
    rfl
  have hdone : workTimes ⟨room, lanes'⟩ lane 1 =
      (⟨(room.perform task).1, rest⟩, (room.perform task).2 ++ []) := by
    rw [workTimes, work, hr]
    rfl
  -- Nothing waits in the lanes before the one of the task, and after it nothing waits anywhere.
  obtain ⟨before, behind, hrange, hnot⟩ := List.eq_append_cons_of_mem (List.mem_range.2 hlt)
  have hbefore : ∀ k ∈ before, (Service.mk room lanes').lanes.tasks k = [] := by
    intro k hkb
    refine (ht k).trans (if_neg fun he => ?_)
    rw [he] at hnot
    exact hnot hkb
  refine ⟨rest, hidle, ?_⟩
  rw [workAll, show (Service.mk room lanes').lanes.count = lanes'.count from rfl, hrange,
    List.foldl_append, foldl_work_of_nil hbefore, List.foldl_cons]
  dsimp only
  rw [hw, hdone]
  dsimp only
  rw [List.append_nil, List.nil_append]
  exact foldl_work_of_nil (s := ⟨(room.perform task).1, rest⟩) (fun k _ => hidle k) _

theorem workAll_of_isIdle (room : Room) (h : lanes.IsIdle) :
    workAll ⟨room, lanes⟩ = (⟨room, lanes⟩, []) :=
  foldl_work_of_nil (s := ⟨room, lanes⟩) (fun lane _ => h lane) []

/-- One tick by itself. What is to be announced is drained and handed off, and if the lanes take the
broadcast, it is done. What else waits in the lanes is left there. -/
def announce (s : Service) : Room :=
  let (room, _, count, _) := s.room.drain.1.handOff s.lanes s.room.drain.2
  if count = 0 then room else (room.broadcast s.room.delta).1

theorem room_tick (h : s.lanes.IsIdle) : s.tick.1.room = s.announce := by
  have ht : s.tick.1 = (workAll ⟨(s.room.drain.1.handOff s.lanes s.room.drain.2).1,
    (s.room.drain.1.handOff s.lanes s.room.drain.2).2.1⟩).1 := rfl
  rw [ht, announce]
  rcases s.room.drain.1.handOff_cases s.lanes s.room.drain.2 with
    ⟨-, hr⟩ | ⟨hn, lanes, events, hl, hr⟩ | ⟨events, hr⟩
  · rw [hr]
    dsimp only
    rw [workAll_of_isIdle _ h]
    rfl
  · rw [hr]
    dsimp only
    rw [if_neg (mt List.length_eq_zero_iff.1 hn)]
    obtain ⟨rest, -, hw⟩ := workAll_of_submit s.room.drain.1 h hl
    rw [hw]
    rfl
  · rw [hr]
    dsimp only
    rw [workAll_of_isIdle _ h]
    rfl

theorem count_tick (hn : s.room.canvas.announcements ≠ [])
    (hl : s.lanes.submit (.broadcast s.room.delta) = .ok lanes) :
    s.tick.2.1 = s.room.canvas.announcements.length := by
  change (s.room.drain.1.handOff s.lanes s.room.canvas.announcements).2.2.1 = _
  have hl : s.lanes.submit (.broadcast (Delta.toJson
    ⟨s.room.drain.1.activeCount, s.room.canvas.announcements⟩)) = .ok lanes := hl
  rw [Room.handOff, if_neg (mt List.isEmpty_iff.1 hn), hl]

variable {c : Connection} {id : Nat}

/-- A tick announces nothing and touches nobody, or it is a broadcast. -/
theorem announce_cases (s : Service) :
    s.tick.2.1 = 0 ∧ s.announce.connections = s.room.connections ∨
      s.tick.2.1 ≠ 0 ∧ s.announce = (s.room.drain.1.broadcast s.room.delta).1 := by
  change (s.room.drain.1.handOff s.lanes s.room.drain.2).2.2.1 = 0 ∧ _ ∨
    (s.room.drain.1.handOff s.lanes s.room.drain.2).2.2.1 ≠ 0 ∧ _
  rw [announce]
  rcases s.room.drain.1.handOff_cases s.lanes s.room.drain.2 with
    ⟨-, hr⟩ | ⟨hn, lanes, events, -, hr⟩ | ⟨events, hr⟩
  · rw [hr]
    exact .inl ⟨rfl, rfl⟩
  · have hl := mt List.length_eq_zero_iff.1 hn
    rw [hr]
    exact .inr ⟨hl, if_neg hl⟩
  · rw [hr]
    exact .inl ⟨rfl, rfl⟩

theorem member?_announce_of_eq_zero (h : s.tick.2.1 = 0) :
    s.announce.member? id = s.room.member? id := by
  rcases s.announce_cases with ⟨-, hc⟩ | ⟨hn, -⟩
  · rw [Room.member?, Room.connection?, hc]
    rfl
  · exact absurd h hn

/-- A tick that announces something makes whoever is ready get the delta, or go. -/
theorem connection?_announce (hm : s.room.member? id = some c) (ha : c.phase = .active)
    (ho : c.outbox.frames = []) (hs : c.socket.IsReady) (h : s.tick.2.1 ≠ 0) :
    s.announce.connection? id = some (
      if (Room.textFrame s.room.delta).length ≤ c.outbox.limit then
        { c with socket := { c.socket with
          received := c.socket.received ++ Room.textFrame s.room.delta } }
      else c.release) := by
  obtain ⟨hc, hl⟩ := Option.filter_eq_some_iff.1 hm
  have hact := Room.isActive_iff.2 ⟨hl, ha⟩
  have hroom := (s.announce_cases.resolve_left fun hz => h hz.1).2
  have hd : s.room.drain.1.connection? id = some c := hc
  have hp : c.phase.isLeaving = false := by rw [ha]; rfl
  have hne : Room.textFrame s.room.delta ≠ [] := nofun
  rw [hroom]
  change (s.room.drain.1.fanOut (Room.textFrame s.room.delta)).1.connection? id = _
  rw [Room.connection?_fanOut, hd, Option.map_some, if_pos hact,
    Connection.post_of_isReady hs ho hl hp hne]

/-- A tick that announces something keeps whoever is active, has nothing waiting and a socket that
takes everything exactly if the frame with the delta is not longer than the outbox may be. Then all
of it is delivered; otherwise the connection is torn down with nothing of it. The frame takes 24
bytes or more for every pixel, while the limit makes room for a picture of one byte a cell. -/
theorem tick_keeps_iff {config : Config} (hm : s.room.member? id = some c) (ha : c.phase = .active)
    (ho : c.outbox = ⟨[], config.outboxLimit⟩) (hs : c.socket.IsReady) :
    (s.lanes.IsIdle → s.tick.1.room = s.announce) ∧
    (s.tick.2.1 = 0 → s.announce.member? id = some c) ∧
    (s.tick.2.1 ≠ 0 →
      ((∃ d, s.announce.member? id = some d ∧ d.phase = .active ∧
          d.socket.received = c.socket.received ++ Room.textFrame s.room.delta) ↔
        (Room.textFrame s.room.delta).length ≤ config.outboxLimit) ∧
      (config.outboxLimit < (Room.textFrame s.room.delta).length →
        s.announce.connection? id = some c.release)) ∧
    38 + 24 * s.room.canvas.announcements.length ≤ (Room.textFrame s.room.delta).length ∧
    (s.room.activeCount ≤ maxWord64 →
      (Room.textFrame s.room.delta).length ≤ 66 + 34 * s.room.canvas.announcements.length) := by
  have hlen := s.room.length_textFrame_delta
  refine ⟨room_tick, fun h => (member?_announce_of_eq_zero h).trans hm, ?_, hlen.1, hlen.2⟩
  intro h
  have hlim : c.outbox.limit = config.outboxLimit := by rw [ho]
  have hc := connection?_announce hm ha (by rw [ho]) hs h
  rw [hlim] at hc
  refine ⟨⟨?_, ?_⟩, ?_⟩
  · rintro ⟨d, hd, -, -⟩
    by_contra hlt
    rw [if_neg hlt] at hc
    obtain ⟨hd, hl⟩ := Option.filter_eq_some_iff.1 hd
    rw [hc, Option.some.injEq] at hd
    rw [← hd] at hl
    simp [Connection.release] at hl
  · intro hle
    rw [if_pos hle] at hc
    have hk : s.announce.member? id = some { c with socket := { c.socket with
        received := c.socket.received ++ Room.textFrame s.room.delta } } := by
      rw [Room.member?, hc]
      exact if_pos (Option.filter_eq_some_iff.1 hm).2
    exact ⟨_, hk, ha, rfl⟩
  · intro hlt
    rw [hc, if_neg (Nat.not_le_of_lt hlt)]

/-- One client, and two pixels to tell it of. -/
theorem tick_keeps_iff_two_pixels : ∃ config : Config, config.check = .ok () ∧ ∃ s : Service,
    s.lanes.IsIdle ∧ s.tick.2.1 ≠ 0 ∧ ∃ c, s.room.member? 1 = some c ∧ c.phase = .active ∧
      c.outbox = ⟨[], config.outboxLimit⟩ ∧ c.socket.IsReady ∧
      ∃ d, s.tick.1.room.member? 1 = some d ∧ d.phase = .active ∧
        d.socket.received = c.socket.received ++ Room.textFrame s.room.delta := by
  let config : Config := { Config.standard with width := 2, height := 1, maxOutbox := 0 }
  let canvas : Canvas :=
    ⟨2, 1, .replicate 2 Palette.white, .replicate 2 (some Palette.white), 2, rfl,
    rfl, fun _ hc => (Array.mem_replicate.1 hc).2 ▸ Palette.has_white, by decide⟩
  let c : Connection := { Connection.new 1 "peer" .fresh 1024 config.outboxLimit with
    phase := .active
    listed := true }
  let s : Service := ⟨{ Room.new canvas 1 1024 config.outboxLimit none with connections := [c] },
    .start 1 1⟩
  have hidle : s.lanes.IsIdle := Lanes.isIdle_start 1 1
  have hn : s.room.canvas.announcements ≠ [] := by decide
  have ht : s.tick.2.1 ≠ 0 := by
    rw [count_tick hn rfl]
    exact mt List.length_eq_zero_iff.1 hn
  have hm : s.room.member? 1 = some c := rfl
  have ho : c.outbox = ⟨[], config.outboxLimit⟩ := rfl
  have hk := tick_keeps_iff hm rfl ho ⟨rfl, rfl, rfl⟩
  have hle : (Room.textFrame s.room.delta).length ≤ config.outboxLimit :=
    Nat.le_trans (hk.2.2.2.2 (by decide)) (by decide)
  refine ⟨config, rfl, s, hidle, ht, c, hm, rfl, ho, ⟨rfl, rfl, rfl⟩, ?_⟩
  rw [hk.1 hidle]
  exact (hk.2.2.1 ht).1.2 hle

/-- A server whose settings are in order runs into a tick that ends the connection of a client that
keeps up: on a canvas of 64 by 64 every cell has been painted since the last tick. -/
theorem tick_evicts_ready_client : ∃ config : Config, config.check = .ok () ∧ ∃ s : Live,
    Live.Reachable s ∧ s.lanes.IsIdle ∧ ∃ c, s.room.member? 1 = some c ∧ c.phase = .active ∧
      c.outbox = ⟨[], config.outboxLimit⟩ ∧ c.socket.IsReady ∧ s.tick.1.room.member? 1 = none ∧
      s.tick.1.room.connection? 1 = some c.release := by
  let config : Config := { Config.standard with width := 64, height := 64, maxOutbox := 0 }
  have hlimit : config.outboxLimit = 69640 := by decide
  obtain ⟨canvas, hc, harea⟩ : ∃ c, Canvas.blank config.width config.height Palette.white = .ok c ∧
    c.area = 4096 := ⟨_, rfl, by decide⟩
  have hf : Live.Fresh
      ⟨.new canvas config.maxClients config.recvBuffer config.outboxLimit none, .start 1 1⟩ :=
    ⟨rfl, Lanes.payloads_start 1 1, Canvas.announcements_of_blank hc,
      show config.maxClients ≤ maxWord64 by decide⟩
  -- A client joins and is sent the picture. Then every cell is painted.
  obtain ⟨s, hs, hm, hcanvas, hlanes⟩ : ∃ s, Live.Reachable s ∧ s.room.member? 1 =
      some { Connection.new 1 "peer" .fresh config.recvBuffer config.outboxLimit with
        listed := true } ∧ s.room.canvas = canvas ∧ s.lanes = .start 1 1 :=
    ⟨_, (Live.Reachable.start hf).step (.accept _ 1 "peer" .fresh rfl), rfl, rfl, rfl⟩
  have hpic : s.picture.length ≤ config.outboxLimit := by
    rw [Live.picture, hcanvas, Frame.encode, Frame.length_encodeWith, Snapshot.length_encode,
      Canvas.length_pixels_snapshot, harea]
    decide
  obtain ⟨c, hw, hph, ho, hsock⟩ : ∃ c, (s.welcome _).room.member? 1 = some c ∧
      c.phase = .active ∧ c.outbox = ⟨[], config.outboxLimit⟩ ∧ c.socket.IsReady :=
    ⟨_, Live.member?_welcome hm ⟨rfl, rfl, rfl⟩ rfl rfl hpic, rfl, rfl, ⟨rfl, rfl, rfl⟩⟩
  have hall := (Canvas.length_announcements_paintAll canvas (by decide : Palette.Has 5)).trans harea
  rw [← hcanvas] at hall
  obtain ⟨t, ht, hc, hta, htl⟩ : ∃ t, Live.Reachable t ∧ t.room.member? 1 = some c ∧
      t.room.canvas.announcements.length = 4096 ∧ t.lanes = .start 1 1 :=
    ⟨_, (hs.step (.welcome s 1 _ hm)).step (.paint _ _), hw, hall, hlanes⟩
  have hidle : t.lanes.IsIdle := htl ▸ Lanes.isIdle_start 1 1
  obtain ⟨lanes, hl⟩ : ∃ lanes, t.lanes.submit (.broadcast t.room.delta) = .ok lanes := by
    rw [htl]
    exact ⟨_, rfl⟩
  have hn : t.room.canvas.announcements ≠ [] := by
    intro he
    rw [he] at hta
    simp at hta
  have htick : t.tick.2.1 ≠ 0 := by
    rw [count_tick hn hl, hta]
    decide
  have hlong : ¬ (Room.textFrame t.room.delta).length ≤ c.outbox.limit := by
    have := t.room.length_textFrame_delta.1
    rw [ho]
    dsimp only
    omega
  have hgone := connection?_announce hc hph (by rw [ho]) hsock htick
  rw [if_neg hlong, ← room_tick hidle] at hgone
  refine ⟨config, rfl, t, ht, hidle, c, hc, hph, ho, hsock, ?_, hgone⟩
  rw [Room.member?, hgone]
  rfl

end Service
end SharedCanvas
