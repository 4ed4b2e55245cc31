import SharedCanvas.Proofs.Session.Account
import SharedCanvas.Proofs.Session.Invariant
import SharedCanvas.Proofs.Session.Overflow
import Mathlib.Logic.Function.Basic

namespace SharedCanvas

open Function (update)

theorem Room.modify_eq (r : Room) (id : Nat) (f : Connection → Connection × List Event) :
    (r.modify id f).1 = { r with connections := (r.modify id f).1.connections } := by
  unfold modify
  split <;> rfl

/-- A room between two tasks, and what has happened in it. -/
structure Gathering where
  room : Room
  /-- What has come from each connection since it was taken in, chunk by chunk. -/
  heard : Nat → List Bytes
  /-- What the canvas showed before each step. -/
  shown : List Snapshot

namespace Gathering

def start (room : Room) : Gathering := ⟨room, fun _ => [], []⟩

def goOn (s : Gathering) (room : Room) : Gathering :=
  { s with room, shown := s.room.canvas.snapshot :: s.shown }

/-- A task is done, a socket takes bytes again, or connections are torn down. Beside that the canvas
and the files may be changed, and a socket may begin to meet its writes in another way. -/
inductive Step : Gathering → Gathering → Prop
  | connect (s : Gathering) (id : Nat) (peer : String) (socket : Socket)
    (h : s.room.connection? id = none) (hs : socket.received = []) :
    Step s { s.goOn (s.room.perform (.connect id peer socket)).1 with
      heard := update s.heard id [] }
  | data (s : Gathering) (id : Nat) (bytes : Bytes) :
    Step s { s.goOn (s.room.perform (.data id bytes)).1 with
      heard := update s.heard id (s.heard id ++ [bytes]) }
  | hangUp (s : Gathering) (id : Nat) : Step s (s.goOn (s.room.perform (.hangUp id)).1)
  | broadcast (s : Gathering) (payload : Bytes) :
    Step s (s.goOn (s.room.perform (.broadcast payload)).1)
  | writable (s : Gathering) (id : Nat) : Step s (s.goOn (s.room.modify id Connection.writable).1)
  | writableAll (s : Gathering) : Step s (s.goOn s.room.writableAll.1)
  | teardown (s : Gathering) (id : Nat) (reason : Reason) :
    Step s (s.goOn (s.room.teardown id reason).1)
  | teardownAll (s : Gathering) (reason : Reason) : Step s (s.goOn (s.room.teardownAll reason).1)
  | stand (s : Gathering) (id : Nat) (standing : Standing) :
    Step s (s.goOn (s.room.stand id standing))
  | repaint (s : Gathering) (canvas : Canvas) : Step s (s.goOn { s.room with canvas })
  | refile (s : Gathering) (files : FileSystem) : Step s (s.goOn (s.room.withFiles files))

/-- Any number of steps, in any order. -/
inductive Run : Gathering → Gathering → Prop
  | refl (s : Gathering) : Run s s
  | step {s t u : Gathering} (h : Run s t) (ht : Step t u) : Run s u

/-- The state is one that tasks can lead to from a room that nobody is in. -/
def Reachable (s : Gathering) : Prop := ∃ room : Room, room.connections = [] ∧ Run (start room) s

theorem Run.trans {s t u : Gathering} (h : Run s t) (h' : Run t u) : Run s u := by
  induction h' with
  | refl => exact h
  | step _ ht ih => exact ih.step ht

end Gathering

/-- What a step does to a connection from which `heard` has come before it, and `heard'` with it. -/
inductive Connection.Moves (canvas : Canvas) (site : Option Site) (heard : List Bytes)
    (c : Connection) : List Bytes → Connection → Prop
  | rest : Moves canvas site heard c heard c
  /-- Bytes come too late. -/
  | missed (hl : c.listed = false) (bytes : Bytes) : Moves canvas site heard c (heard ++ [bytes]) c
  | visited (hl : c.listed = true) (bytes : Bytes) :
    Moves canvas site heard c (heard ++ [bytes]) (c.visited canvas site bytes).1
  | released (hl : c.listed = true) : Moves canvas site heard c heard c.release
  | writable (hl : c.listed = true) : Moves canvas site heard c heard c.writable.1
  | posted (hl : c.listed = true) (ha : c.phase = .active) (frame : Bytes) :
    Moves canvas site heard c heard (c.post frame).1
  | stood (standing : Standing) :
    Moves canvas site heard c heard { c with socket := { c.socket with standing } }

namespace Connection

variable {canvas : Canvas} {site : Option Site} {heard heard' : List Bytes} {c d : Connection}

theorem moves_teardown (canvas : Canvas) (site : Option Site) (heard : List Bytes) (c : Connection)
    (reason : Reason) : c.Moves canvas site heard heard (c.teardown reason).1 := by
  unfold teardown
  split
  · exact .released ‹_›
  · exact .rest

theorem preserves_member (id : Nat) (listed : Bool) :
    Visit.Preserves fun c => c.id = id ∧ c.listed = listed := by
  have ha : ∀ {c : Connection}, c.id = id ∧ c.listed = listed →
      (c.advance .active).id = id ∧ (c.advance .active).listed = listed := by
    intro c hc
    obtain ⟨phase, hp⟩ := c.advance_eq .active
    rw [hp]
    exact hc
  refine ⟨⟨?_, fun hc _ => hc, fun _ hc => hc⟩, ha, fun hc _ => hc, fun hc _ => hc⟩
  intro c bytes hc
  obtain ⟨hi, hl, -⟩ := c.send_keeps bytes
  exact ⟨hi.trans hc.1, hl.trans hc.2⟩

theorem visited_spec (canvas : Canvas) (site : Option Site) (hl : c.listed = true) (bytes : Bytes) :
    (c.visited canvas site bytes).1.id = c.id ∧
      ((c.visited canvas site bytes).1.phase.isLeaving = true ∨
        (c.visited canvas site bytes).1.listed = true) := by
  obtain ⟨hid, hlist⟩ :=
    (preserves_member c.id c.listed).receive (v := ⟨canvas, c, #[]⟩) ⟨rfl, rfl⟩ site bytes
  obtain ⟨hi, hs⟩ := Room.settle_spec (hlist.trans hl)
    ((Visit.mk canvas c #[]).receive site bytes).2
  refine ⟨hi.trans hid, ?_⟩
  rcases hs with ⟨-, hs⟩ | hs
  · exact .inr ((congrArg Connection.listed hs).trans (hlist.trans hl))
  · exact .inl hs

/-- Nobody is put back into the registry, or leaves it and stays active. -/
theorem Moves.member (h : c.Moves canvas site heard heard' d) : d.id = c.id ∧
    (d.listed = true → c.listed = true) ∧
      ((c.phase = .active → c.listed = true) → d.phase = .active → d.listed = true) := by
  cases h with
  | rest => exact ⟨rfl, fun hl => hl, fun hc => hc⟩
  | missed hl bytes => exact ⟨rfl, fun hl => hl, fun hc => hc⟩
  | visited hl bytes =>
    obtain ⟨hi, hs⟩ := visited_spec canvas site hl bytes
    exact ⟨hi, fun _ => hl, fun _ ha => hs.resolve_left fun hp => (ne_of_isLeaving hp).2 ha⟩
  | released hl =>
    exact ⟨c.id_release, fun _ => hl, fun _ ha => absurd ha c.phase_release_ne_active⟩
  | writable hl =>
    have hs := c.stays_writable
    refine ⟨hs.id, hs.listed, fun _ ha => ?_⟩
    rcases hs.phase with hp | ⟨-, -, hdl⟩
    · exact absurd ha (ne_of_isLeaving hp).2
    · exact hdl.trans hl
  | posted hl ha frame =>
    have hq := queues_post hl (by rw [ha]; rfl) frame
    exact ⟨hq.id, hq.listed, fun _ hp => (hq.active hp).1.trans hl⟩
  | stood standing => exact ⟨rfl, fun hl => hl, fun hc => hc⟩

end Connection

namespace Gathering

variable {s t : Gathering} {room : Room}

theorem Step.room_eq (h : Step s t) :
    ∃ canvas connections site, t.room = { s.room with canvas, connections, site } := by
  cases h with
  | connect id peer socket hi hs =>
    rcases s.room.accept_cases id peer socket with hr | ⟨-, _, -, hr⟩ <;> exact ⟨_, _, _, hr⟩
  | data id bytes =>
    refine ⟨(s.room.receive id bytes).1.canvas, (s.room.receive id bytes).1.connections,
      s.room.site, ?_⟩
    change (s.room.receive id bytes).1 = _
    unfold Room.receive
    split <;> rfl
  | hangUp id => exact ⟨_, _, _, s.room.modify_eq id _⟩
  | broadcast payload => exact ⟨_, _, _, rfl⟩
  | writable id => exact ⟨_, _, _, s.room.modify_eq id _⟩
  | writableAll => exact ⟨_, _, _, rfl⟩
  | teardown id reason => exact ⟨_, _, _, s.room.modify_eq id _⟩
  | teardownAll reason => exact ⟨_, _, _, rfl⟩
  | stand id standing =>
    refine ⟨s.room.canvas, (s.room.stand id standing).connections, s.room.site, ?_⟩
    change s.room.stand id standing = _
    unfold Room.stand
    split <;> rfl
  | repaint canvas => exact ⟨_, _, _, rfl⟩
  | refile files => exact ⟨_, _, _, rfl⟩

/-- Every connection moves, each for itself, and none is lost. -/
def MovesAll (s t : Gathering) : Prop :=
  ∃ f : Connection → Connection, t.room.connections = s.room.connections.map f ∧
    ∀ c ∈ s.room.connections,
      c.Moves s.room.canvas s.room.site (s.heard c.id) (t.heard c.id) (f c)

/-- Somebody is taken in, and nobody else moves. -/
def Admits (s t : Gathering) : Prop :=
  ∃ id peer socket d, s.room.connection? id = none ∧ socket.received = [] ∧
    t.room = (s.room.accept id peer socket).1 ∧ s.room.IsNew id peer socket d ∧
    t.room.connections = s.room.connections ++ [d] ∧
    t.heard id = [] ∧ ∀ c ∈ s.room.connections, t.heard c.id = s.heard c.id

theorem movesAll_modify (ho : s.room.Orderly) (id : Nat) {f : Connection → Connection × List Event}
    (hf : ∀ c, c.listed = true → (f c).1.id = c.id ∧
      c.Moves s.room.canvas s.room.site (s.heard c.id) (s.heard c.id) (f c).1) :
    s.MovesAll (s.goOn (s.room.modify id f).1) := by
  change ∃ g, (s.room.modify id f).1.connections = _ ∧ _
  unfold Room.modify
  split
  · exact ⟨fun c => c, (List.map_id' _).symm, fun c _ => .rest⟩
  · rename_i c hm
    obtain ⟨hc, -, hl⟩ := Room.mem_of_member? hm
    obtain ⟨hi, hmv⟩ := hf c hl
    refine ⟨_, s.room.put_eq_map (f c).1, ?_⟩
    exact ho.put_cases (motive := fun b b' =>
      b.Moves s.room.canvas s.room.site (s.heard b.id) (s.heard b.id) b') hc hi hmv
        fun b _ _ => .rest

theorem movesAll_data (ho : s.room.Orderly) (id : Nat) (bytes : Bytes) :
    s.MovesAll { s.goOn (s.room.perform (.data id bytes)).1 with
      heard := update s.heard id (s.heard id ++ [bytes]) } := by
  have hne : ∀ {i}, i ≠ id → update s.heard id (s.heard id ++ [bytes]) i = s.heard i :=
    fun hi => Function.update_of_ne hi _ _
  have heq : update s.heard id (s.heard id ++ [bytes]) id = s.heard id ++ [bytes] :=
    Function.update_self ..
  rcases hm : s.room.member? id with _ | c
  · have hr : (s.room.perform (.data id bytes)).1 = s.room := by
      rw [Room.perform, Room.receive, hm]
    refine ⟨fun c => c, ?_, ?_⟩
    · dsimp only [goOn]
      rw [hr, List.map_id']
    · intro c hc
      change c.Moves _ _ _ (update s.heard id _ c.id) c
      by_cases hi : c.id = id
      · -- Whoever has the id is not listed.
        have hcon := ho.connection?_eq hc
        rw [hi] at hcon
        rw [Room.member?, hcon] at hm
        rw [hi, heq]
        exact .missed (by simpa using hm) bytes
      · rw [hne hi]
        exact .rest
  · obtain ⟨hc, rfl, hl⟩ := Room.mem_of_member? hm
    obtain ⟨hi, -⟩ := Connection.visited_spec s.room.canvas s.room.site hl bytes
    refine ⟨_,
      (?_ : _ = (s.room.put (c.visited s.room.canvas s.room.site bytes).1).connections), ?_⟩
    · dsimp only [goOn]
      rw [Room.perform, Room.receive_of_member hm]
      rfl
    · refine ho.put_cases (motive := fun b b' => b.Moves s.room.canvas s.room.site (s.heard b.id)
        (update s.heard c.id (s.heard c.id ++ [bytes]) b.id) b') hc hi ?_ ?_
      · rw [heq]
        exact .visited hl bytes
      · intro b _ hb
        rw [hne hb]
        exact .rest

theorem Step.cases (ho : s.room.Orderly) (h : Step s t) : s.MovesAll t ∨ s.Admits t := by
  cases h with
  | connect id peer socket hi hs =>
    have hne : ∀ c ∈ s.room.connections, update s.heard id [] c.id = s.heard c.id :=
      fun c hc => Function.update_of_ne (Room.ne_of_connection? hi hc) _ _
    rcases s.room.accept_cases id peer socket with hr | ⟨-, d, hd, hr⟩
    · refine .inl ⟨fun c => c, ?_, ?_⟩
      · rw [List.map_id']
        exact congrArg Room.connections hr
      · intro c hc
        change c.Moves _ _ _ (update s.heard id [] c.id) c
        rw [hne c hc]
        exact .rest
    · exact .inr ⟨id, peer, socket, d, hi, hs, rfl, hd, congrArg Room.connections hr,
        Function.update_self .., hne⟩
  | data id bytes => exact .inl (movesAll_data ho id bytes)
  | hangUp id =>
    exact .inl (movesAll_modify ho id fun c _ => ⟨c.id_teardown _, c.moves_teardown _ _ _ _⟩)
  | broadcast payload =>
    refine .inl ⟨_, s.room.connections_fanOut _, ?_⟩
    intro c _
    split
    · rename_i ha
      obtain ⟨hl, ha⟩ := Room.isActive_iff.1 ha
      exact .posted hl ha _
    · exact .rest
  | writable id =>
    exact .inl (movesAll_modify ho id fun c hl => ⟨c.stays_writable.id, .writable hl⟩)
  | writableAll =>
    refine .inl ⟨fun c => (if Room.hasEdge c then c.writable else (c, [])).1, List.map_map .., ?_⟩
    intro c _
    dsimp only
    split
    · rename_i he
      unfold Room.hasEdge at he
      simp only [Bool.and_eq_true] at he
      exact .writable he.1.1.1
    · exact .rest
  | teardown id reason =>
    exact .inl (movesAll_modify ho id fun c _ => ⟨c.id_teardown _, c.moves_teardown _ _ _ _⟩)
  | teardownAll reason =>
    exact .inl ⟨_, List.map_map .., fun c _ => c.moves_teardown _ _ _ _⟩
  | stand id standing =>
    left
    change ∃ g, (s.room.stand id standing).connections = _ ∧ _
    unfold Room.stand
    split
    · exact ⟨fun c => c, (List.map_id' _).symm, fun c _ => .rest⟩
    · rename_i c hc
      obtain ⟨hcm, -⟩ := Room.mem_of_connection? hc
      refine ⟨_, s.room.put_eq_map { c with socket := { c.socket with standing } }, ?_⟩
      exact ho.put_cases (d := { c with socket := { c.socket with standing } })
        (motive := fun b b' => b.Moves s.room.canvas s.room.site (s.heard b.id) (s.heard b.id) b')
        hcm rfl (.stood standing) fun b _ _ => .rest
  | repaint canvas => exact .inl ⟨fun c => c, (List.map_id' _).symm, fun c _ => .rest⟩
  | refile files => exact .inl ⟨fun c => c, (List.map_id' _).symm, fun c _ => .rest⟩

theorem Step.orderly (ho : s.room.Orderly) (h : Step s t) : t.room.Orderly := by
  obtain ⟨_, _, _, hr⟩ := h.room_eq
  rcases h.cases ho with ⟨f, hf, hm⟩ | ⟨id, peer, socket, -, hi, -, ht, -⟩
  · refine ho.of_map hf (by rw [hr]) ?_
    intro c hc
    obtain ⟨hid, hl, ha⟩ := (hm c hc).member
    exact ⟨hid, hl, ha (ho.listed c hc)⟩
  · rw [ht]
    exact ho.accept hi peer socket

/-- What holds of whoever comes, and is preserved by every move, holds of all connections. -/
theorem forall_of_run (hr : room.connections = []) (h : Run (start room) s)
    {motive : List Snapshot → List Bytes → Connection → Prop}
    (hnew : ∀ shown id peer socket, socket.received = [] →
      motive shown [] (room.newcomer id peer socket))
    (hmove : ∀ {canvas site shown heard c heard' d}, motive shown heard c →
      c.Moves canvas site heard heard' d → motive (canvas.snapshot :: shown) heard' d) :
    (∃ canvas connections site, s.room = { room with canvas, connections, site }) ∧
      s.room.Orderly ∧
      ∀ c ∈ s.room.connections, motive s.shown (s.heard c.id) c := by
  -- On the run. That ids are not given twice goes with it, since a step needs it to say who moves.
  induction h with
  | refl =>
    have hn : ∀ c, c ∉ room.connections := fun c hc => by simp [hr] at hc
    refine ⟨⟨_, _, _, rfl⟩, ⟨?_, fun c hc => absurd hc (hn c), ?_⟩,
      fun c hc => absurd hc (hn c)⟩
    · change (room.connections.map _).Nodup
      rw [hr]
      exact List.nodup_nil
    · change room.memberCount ≤ _
      rw [Room.memberCount, Room.members, hr]
      exact Nat.zero_le _
  | @step s t _ hst ih =>
    obtain ⟨⟨canvas, connections, site, hs⟩, ho, hall⟩ := ih
    obtain ⟨canvas', connections', site', ht⟩ := hst.room_eq
    have hshown : t.shown = s.room.canvas.snapshot :: s.shown := by cases hst <;> rfl
    rw [hshown]
    refine ⟨⟨canvas', connections', site', by rw [ht, hs]⟩, hst.orderly ho, ?_⟩
    have hmv : ∀ {c heard' d}, c ∈ s.room.connections →
        c.Moves s.room.canvas s.room.site (s.heard c.id) heard' d →
          motive (s.room.canvas.snapshot :: s.shown) heard' d :=
      fun hc hm => hmove (hall _ hc) hm
    rcases hst.cases ho with ⟨f, hf, hm⟩ | ⟨id, peer, socket, d, -, hrec, -, hd, hconn, hid, hold⟩
    · intro d hd
      rw [hf] at hd
      obtain ⟨c, hc, rfl⟩ := List.mem_map.1 hd
      rw [(hm c hc).member.1]
      exact hmv hc (hm c hc)
    · intro c hc
      rw [hconn] at hc
      rcases List.mem_append.1 hc with hc | hc
      · rw [hold c hc]
        exact hmv hc .rest
      · have hn := hnew s.shown id peer socket hrec
        have hsame : s.room.newcomer id peer socket = room.newcomer id peer socket := by
          rw [hs]
          rfl
        rw [List.mem_singleton.1 hc, hd.id_eq, hid]
        have hmn : ∀ {e}, (room.newcomer id peer socket).Moves s.room.canvas none [] [] e →
            motive (s.room.canvas.snapshot :: s.shown) [] e := fun hm => hmove hn hm
        rcases hd with rfl | rfl
        · rw [hsame]
          exact hmn .rest
        · rw [hsame]
          exact hmn (.released rfl)

theorem exists_reachable_visited (room : Room) (socket : Socket) (bytes : Bytes)
    (hr : room.connections = []) (hm : 0 < room.maxClients) (hs : socket.received = [])
    (hw : socket.unwatchable = none) :
    ∃ s, Reachable s ∧ (∃ canvas connections, s.room = { room with canvas, connections }) ∧
      s.heard 1 = [bytes] ∧ s.room.connections =
        [((room.newcomer 1 "peer" socket).visited room.canvas room.site bytes).1] := by
  have hi : room.connection? 1 = none := by rw [Room.connection?, hr]; rfl
  have hstep := Step.connect (start room) 1 "peer" socket hi hs
  have hlt : room.memberCount < room.maxClients := by
    rw [Room.memberCount, Room.members, hr]
    exact hm
  have hconn : (room.perform (.connect 1 "peer" socket)).1 =
      { room with connections := [room.newcomer 1 "peer" socket] } := by
    rw [Room.perform, Room.accept_of_lt hlt hw, hr, List.nil_append]
  refine ⟨_, ⟨room, hr, ((Run.refl _).step hstep).step (.data _ 1 bytes)⟩, ?_, ?_, ?_⟩
  · dsimp only [goOn, start]
    rw [hconn]
    exact ⟨_, _, rfl⟩
  · dsimp only
    rw [Function.update_self, Function.update_self]
    rfl
  · dsimp only [goOn, start]
    rw [hconn, Room.perform, Room.receive_of_member rfl]
    exact congrArg (fun c => [c]) (if_pos (Connection.visited_spec _ _ rfl bytes).1.symm)

end Gathering
end SharedCanvas
