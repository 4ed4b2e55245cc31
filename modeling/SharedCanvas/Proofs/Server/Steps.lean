import SharedCanvas.Server

namespace SharedCanvas

namespace Server

/-- Something happens to a server, step by step, so that anything can come between the parts of an
operation. Sockets hand in what they have, and clients get the ids in turn; workers do a task at a
time; either timer does what it does in parts. Other programs may change the files. -/
inductive Step : Server → Server → Prop
  | arrive (s : Server) (peer : String) (socket : Socket) (hs : socket.received = []) :
    Step s { (s.offer (.connect s.nextId peer socket)).1 with nextId := s.nextId + 1 }
  | read (s : Server) (id : Nat) (bytes : Bytes) : Step s (s.offer (.data id bytes)).1
  | readEnd (s : Server) (id : Nat) : Step s (s.offer (.hangUp id)).1
  | flush (s : Server) (id : Nat) : Step s (s.withRoom (s.room.modify id Connection.writable).1)
  | writable (s : Server) : Step s s.writable.1
  | stand (s : Server) (id : Nat) (standing : Standing) :
    Step s (s.withRoom (s.room.stand id standing))
  | work (s : Server) (lane : Nat) : Step s { s with service := (s.service.work lane).1 }
  | drain (s : Server) (ht : s.ticker = none) : Step s s.drain
  | handOff (s : Server) (ps : List Pixel) (ht : s.ticker = some ps) : Step s (s.handOff ps)
  | look (s : Server) (hl : s.looked = false) : Step s s.look
  | note (s : Server) (v : Saver) (h : s.saver = some v) (hl : s.looked = true) :
    Step s { s with saver := some (v.note s.canvas) }
  | copy (s : Server) (v : Saver) (h : s.saver = some v) :
    Step s { s with saver := some (v.copy s.canvas) }
  | draft (s : Server) (v : Saver) (h : s.saver = some v) : Step s (s.withSaver (v.draft s.files))
  | publish (s : Server) (v : Saver) (h : s.saver = some v) :
    Step s (s.withSaver (v.publish s.files))
  | others (s : Server) (files : FileSystem) : Step s (s.withFiles files)

/-- Any number of steps, in any order. -/
inductive Run : Server → Server → Prop
  | refl (s : Server) : Run s s
  | step {s t u : Server} (h : Run s t) (ht : Step t u) : Run s u

variable {s t u : Server}

theorem Run.trans (h : Run s t) (h' : Run t u) : Run s u := by
  induction h' with
  | refl => exact h
  | step _ ht ih => exact ih.step ht

theorem Run.workTimes (h : Run s t) (lane n : Nat) :
    Run s { t with service := (t.service.workTimes lane n).1 } := by
  induction n generalizing t with
  | zero => exact h
  | succ n ih => exact ih (h.step (.work t lane))

theorem Run.workAll (h : Run s t) : Run s { t with service := t.service.workAll.1 } := by
  rw [Service.workAll]
  generalize List.range t.service.lanes.count = order
  generalize ([] : List Event) = events
  induction order generalizing t events with
  | nil => exact h
  | cons lane order ih => exact ih (h.workTimes lane (t.service.lanes.waiting lane)) _

theorem run_connect (s : Server) (peer : String) {socket : Socket} (hs : socket.received = []) :
    Run s (s.connect peer socket).1 :=
  ((Run.refl s).step (.arrive s peer socket hs)).workAll

theorem run_perform_data (s : Server) (id : Nat) (bytes : Bytes) :
    Run s (s.perform (.data id bytes)).1 :=
  ((Run.refl s).step (.read s id bytes)).workAll

theorem run_receive (s : Server) (id : Nat) (bytes : Bytes) : Run s (s.receive id bytes).1 := by
  rw [receive]
  generalize blocks (readChunk - 1) bytes = pieces
  generalize ([] : List Event) = events
  induction pieces generalizing s events with
  | nil => exact .refl s
  | cons piece pieces ih =>
    rw [List.foldl_cons]
    dsimp only
    split
    · exact ih s events
    · exact (s.run_perform_data id piece).trans (ih _ _)

theorem run_hangUp (s : Server) (id : Nat) : Run s (s.hangUp id).1 :=
  ((Run.refl s).step (.readEnd s id)).workAll

theorem run_tick (h : s.ticker = none) : Run s s.tick.1 := by
  have hr := (((Run.refl s).step (.drain s h)).step (.handOff _ _ rfl)).workAll
  obtain ⟨config, service, files, saver, ticker, looked, nextId⟩ := s
  cases h
  exact hr

theorem withSaver_withSaver (s : Server) (r r' : Saver × FileSystem × List Event) :
    (s.withSaver r).withSaver r' = s.withSaver r' := by
  simp only [withSaver, withFiles, withRoom, room, Room.withFiles, Option.map_map]
  rfl

/-- The snapshot timer does in steps what it does at once. -/
theorem run_save (h : s.looked = true) : Run s s.save.1 := by
  cases hv : s.saver with
  | none =>
    rw [save, hv]
    exact .refl s
  | some v =>
    have hr := ((((Run.refl s).step (.note s v hv h)).step (.copy _ _ rfl)).step
      (.draft _ _ rfl)).step (.publish _ _ rfl)
    rw [withSaver_withSaver] at hr
    rw [save, hv]
    exact hr

section
variable {task : Task} {l l' : Lanes} {lane : Nat}

theorem work_offer (hl : s.service.lanes.submit task = .ok l)
    (ht : l.take lane = some (task, l')) : { (s.offer task).1 with
      service := ((s.offer task).1.service.work lane).1 } =
        { s with service := ⟨(s.room.perform task).1, l'⟩ } := by
  simp only [offer, Service.offer, Service.submit, hl, Except.map, Service.work, ht]
  rfl

/-- In one lane with room for one task, bytes of the first client are handled as they come. -/
theorem Run.data (h : Run s t) (hl : t.service.lanes = .start 1 1) (bytes : Bytes) :
    Run s { t with service := ⟨(t.room.receive 1 bytes).1, .start 1 1⟩ } := by
  obtain ⟨l, hs, hk⟩ : ∃ l, t.service.lanes.submit (.data 1 bytes) = .ok l ∧
      l.take 0 = some (.data 1 bytes, .start 1 1) := by
    rw [hl]
    exact ⟨_, rfl, rfl⟩
  have hr := (h.step (.read t 1 bytes)).step (.work _ 0)
  rwa [work_offer hs hk] at hr

theorem Run.announce (h : Run s t) (hl : t.service.lanes = .start 1 1) (ht : t.ticker = none)
    (ha : t.canvas.announcements ≠ []) : ∃ room : Room, room.canvas = t.canvas.drain.1 ∧
      Run s { t with service := ⟨room, .start 1 1⟩, ticker := none } := by
  have hr := ((h.step (.drain t ht)).step (.handOff _ _ rfl)).step (.work _ 0)
  let task := Task.broadcast (Delta.toJson ⟨t.room.drain.1.activeCount, t.room.drain.2⟩)
  have hn : t.room.drain.2.isEmpty = false := by
    change t.canvas.announcements.isEmpty = false
    simpa using ha
  have hoff : ∃ l n e, t.room.drain.1.handOff t.service.lanes t.room.drain.2 =
      (t.room.drain.1, l, n, e) ∧ l.take 0 = some (task, .start 1 1) := by
    rw [Room.handOff, hn, hl]
    exact ⟨_, _, _, rfl, rfl⟩
  obtain ⟨l, n, e, hoff, hk⟩ := hoff
  have hservice : (t.drain.handOff t.room.drain.2).service = ⟨t.room.drain.1, l⟩ :=
    congrArg (fun x => Service.mk x.1 x.2.1) hoff
  have hwork : ((t.drain.handOff t.room.drain.2).service.work 0).1 =
      ⟨(t.room.drain.1.perform task).1, .start 1 1⟩ := by
    rw [hservice, Service.work, hk]
  rw [hwork] at hr
  exact ⟨_, rfl, hr⟩

theorem Run.accept (h : Run s t) (hl : t.service.lanes = .start 1 1) (hi : t.nextId = 1) : Run s
    { t with service := ⟨(t.room.accept 1 "peer" .fresh).1, .start 1 1⟩, nextId := 2 } := by
  obtain ⟨l, hs, hk⟩ : ∃ l, t.service.lanes.submit (.connect 1 "peer" .fresh) = .ok l ∧
      l.take 0 = some (.connect 1 "peer" .fresh, .start 1 1) := by
    rw [hl]
    exact ⟨_, rfl, rfl⟩
  have hr := (h.step (.arrive t "peer" .fresh rfl)).step (.work _ 0)
  rw [hi] at hr
  exact congrArg (fun u : Server => { u with nextId := 2 }) (work_offer hs hk) ▸ hr

end

end Server
end SharedCanvas
