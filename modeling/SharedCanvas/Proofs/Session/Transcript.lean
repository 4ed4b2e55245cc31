import SharedCanvas.Proofs.Broadcast.Convergence
import SharedCanvas.Proofs.Server.Size
import SharedCanvas.Proofs.Session.Account
import SharedCanvas.Proofs.Session.Overflow
import SharedCanvas.Proofs.Session.Response
import SharedCanvas.Proofs.Session.Visit
import Mathlib.Logic.Function.Basic

namespace SharedCanvas

open Function (update)

namespace Visit
open Connection

/-- Whoever waits for nothing and sends nothing but a request to upgrade is active once it was
answered, if neither the answer nor the picture is more than may wait. -/
theorem greet_of_isUpgrade {v : Visit} (site : Option Site) (hi : v.conn.IsIdle)
    (hp : v.conn.phase = .handshaking) (hr : Handshake.IsUpgrade v.conn.inbox.staged)
    (hl : 129 ≤ v.conn.outbox.limit)
    (hl' : (Frame.encode .binary v.canvas.snapshot.encode).length ≤ v.conn.outbox.limit) :
    (v.greet site).2 = none ∧ (v.greet site).1.conn.phase = .active ∧
      (v.greet site).1.conn.id = v.conn.id ∧ (v.greet site).1.conn.inbox =
        { v.conn.inbox with staged := [], midUnit := v.conn.inbox.assembler.isPartial } := by
  obtain ⟨response, hv⟩ := hr
  obtain ⟨-, _, key, -, -, rfl⟩ := Handshake.exists_key_of_process hv
  have hlen := Handshake.length_upgradeResponse key
  rw [greet_of_upgraded site hi hp hv (by omega) hl', List.drop_length, takeFrames_of_nil rfl]
  exact ⟨rfl, rfl, rfl, rfl⟩

end Visit

namespace Connection.IsIdle

variable {c : Connection} {request : Bytes}

theorem receive_of_isUpgrade (hi : c.IsIdle) (canvas : Canvas) (site : Option Site)
    (hp : c.phase = .handshaking) (hs : c.inbox.staged = []) (hr : Handshake.IsUpgrade request)
    (hc : request.length ≤ c.inbox.capacity) (hl : 129 ≤ c.outbox.limit)
    (hl' : (Frame.encode .binary canvas.snapshot.encode).length ≤ c.outbox.limit) :
    let result := (Visit.mk canvas c #[]).receive site request
    result.2 = none ∧ result.1.conn.phase = .active ∧ result.1.conn.id = c.id ∧
      result.1.conn.inbox = { c.inbox with midUnit := c.inbox.assembler.isPartial } := by
  have hrec : (Visit.mk canvas c #[]).receive site request =
      ((Visit.mk canvas c #[]).setStaged request).greet site := by
    rcases (Visit.mk canvas c #[]).receive_cases site (by rw [hp]; rfl) request with ⟨hlt, -⟩ | h
    · dsimp only at hlt
      rw [hs, List.length_nil, Nat.zero_add] at hlt
      omega
    · rw [h, if_pos hp, hs, List.nil_append]
  have hg := Visit.greet_of_isUpgrade (v := (Visit.mk canvas c #[]).setStaged request) site
    ⟨hi.socket, hi.outbox⟩ hp hr hl hl'
  dsimp only
  rw [hrec]
  refine ⟨hg.1, hg.2.1, hg.2.2.1, hg.2.2.2.trans ?_⟩
  rw [← hs]
  rfl

theorem visited_of_isUpgrade (hi : c.IsIdle) (canvas : Canvas) (site : Option Site)
    (hp : c.phase = .handshaking) (hs : c.inbox.staged = []) (hr : Handshake.IsUpgrade request)
    (hc : request.length ≤ c.inbox.capacity) (hl : 129 ≤ c.outbox.limit)
    (hl' : (Frame.encode .binary canvas.snapshot.encode).length ≤ c.outbox.limit) :
    (c.visited canvas site request).1.phase = .active ∧
      (c.visited canvas site request).1.id = c.id := by
  obtain ⟨hn, hph, hid, -⟩ := hi.receive_of_isUpgrade canvas site hp hs hr hc hl hl'
  rw [visited]
  dsimp only
  rw [hn]
  exact ⟨hph, hid⟩

theorem inbox_visited_of_isUpgrade (hi : c.IsIdle) (canvas : Canvas) (site : Option Site)
    (hp : c.phase = .handshaking) (hs : c.inbox.staged = []) (hr : Handshake.IsUpgrade request)
    (hc : request.length ≤ c.inbox.capacity) (hl : 129 ≤ c.outbox.limit)
    (hl' : (Frame.encode .binary canvas.snapshot.encode).length ≤ c.outbox.limit) :
    (c.visited canvas site request).1.inbox =
      { c.inbox with midUnit := c.inbox.assembler.isPartial } := by
  obtain ⟨hn, -, -, hin⟩ := hi.receive_of_isUpgrade canvas site hp hs hr hc hl hl'
  rw [visited]
  dsimp only
  rw [hn]
  exact hin

end Connection.IsIdle

/-- A room between two tasks, with its history. -/
structure Transcript where
  room : Room
  /-- What the peer of each connection has sent. -/
  heard : Nat → Bytes
  /-- What the canvas showed when each connection became active, if it did. -/
  opened : Nat → Option Snapshot
  /-- What was taken from the canvas at each tick. -/
  drained : List (List Pixel)
  composed : List Bytes

namespace Transcript

def connect (s : Transcript) (id : Nat) (peer : String) (socket : Socket) : Transcript :=
  { s with
    room := (s.room.perform (.connect id peer socket)).1
    heard := update s.heard id []
    opened := update s.opened id none }

/-- Bytes of a connection are handled. What the canvas shows is noted if the connection is reported
upgraded. -/
def data (s : Transcript) (id : Nat) (bytes : Bytes) : Transcript :=
  { s with
    room := (s.room.perform (.data id bytes)).1
    heard := update s.heard id (s.heard id ++ bytes)
    opened :=
      if .upgraded id ∈ (s.room.perform (.data id bytes)).2 then
        update s.opened id (some s.room.canvas.snapshot)
      else s.opened }

def setRoom (s : Transcript) (room : Room) : Transcript := { s with room }

def drain (s : Transcript) : Transcript :=
  { s with room := s.room.drain.1, drained := s.room.drain.2 :: s.drained }

/-- The second half of a tick. The delta counts as composed even if the lanes refuse it. -/
def handOff (s : Transcript) (lanes : Lanes) (ps : List Pixel) : Transcript :=
  { s with
    room := (s.room.handOff lanes ps).1
    composed := Delta.toJson ⟨s.room.activeCount, ps⟩ :: s.composed }

/-- A task is done, or something happens beside the tasks. A socket meets each write as its script
says, which is any; its peer has got nothing yet when it connects. -/
inductive Step : Transcript → Transcript → Prop
  | connect (s : Transcript) (id : Nat) (peer : String) (socket : Socket)
    (h : s.room.connection? id = none) (hs : socket.received = []) :
    Step s (s.connect id peer socket)
  | data (s : Transcript) (id : Nat) (bytes : Bytes) : Step s (s.data id bytes)
  | hangUp (s : Transcript) (id : Nat) : Step s (s.setRoom (s.room.perform (.hangUp id)).1)
  | broadcast (s : Transcript) (payload : Bytes) (h : payload ∈ s.composed) :
    Step s (s.setRoom (s.room.perform (.broadcast payload)).1)
  | drain (s : Transcript) : Step s s.drain
  | handOff (s : Transcript) (lanes : Lanes) (ps : List Pixel) (h : ps ∈ s.drained) :
    Step s (s.handOff lanes ps)
  | writable (s : Transcript) (id : Nat) :
    Step s (s.setRoom (s.room.modify id Connection.writable).1)
  | writableAll (s : Transcript) : Step s (s.setRoom s.room.writableAll.1)
  | teardown (s : Transcript) (id : Nat) (reason : Reason) :
    Step s (s.setRoom (s.room.teardown id reason).1)
  | teardownAll (s : Transcript) (reason : Reason) :
    Step s (s.setRoom (s.room.teardownAll reason).1)
  | stand (s : Transcript) (id : Nat) (standing : Standing) :
    Step s (s.setRoom (s.room.stand id standing))
  | refile (s : Transcript) (files : FileSystem) : Step s (s.setRoom (s.room.withFiles files))

def start (room : Room) : Transcript :=
  ⟨room, fun _ => [], fun _ => none, [], []⟩

inductive Reachable : Transcript → Prop
  | start {room : Room} (h : room.connections = []) (hm : room.maxClients ≤ maxWord64) :
    Reachable (start room)
  | step {s t : Transcript} (hs : Reachable s) (h : Step s t) : Reachable t

structure Sound (s : Transcript) : Prop where
  room : s.room.Orderly
  clients : s.room.maxClients ≤ maxWord64
  drained : ∀ ps ∈ s.drained, ps.length ≤ s.room.canvas.area
  composed : ∀ payload ∈ s.composed, s.room.canvas.Tells payload
  pictures : ∀ id picture, s.opened id = some picture → ∃ canvas : Canvas, canvas.snapshot = picture
  accounts : ∀ c ∈ s.room.connections, c.Accounts (s.heard c.id) (s.opened c.id)

variable {s t : Transcript}

theorem Sound.of_map (h : s.Sound) (hz : s.room.canvas.SameSize t.room.canvas)
    (hm : t.room.maxClients = s.room.maxClients) (hd : t.drained = s.drained)
    (hcomp : t.composed = s.composed)
    (hp : ∀ id picture, t.opened id = some picture → ∃ canvas : Canvas, canvas.snapshot = picture)
    {f : Connection → Connection} (hr : t.room.connections = s.room.connections.map f)
    (hf : ∀ c ∈ s.room.connections, (f c).id = c.id ∧ ((f c).listed = true → c.listed = true) ∧
      ((f c).phase = .active → (f c).listed = true) ∧
      (f c).Accounts (t.heard c.id) (t.opened c.id)) : t.Sound := by
  refine ⟨?_, hm ▸ h.clients, ?_, ?_, hp, ?_⟩
  · exact h.room.of_map hr hm fun c hc => ⟨(hf c hc).1, (hf c hc).2.1, (hf c hc).2.2.1⟩
  · rw [hd, Canvas.area_eq_of_eq hz.1 hz.2]
    exact h.drained
  · rw [hcomp]
    exact fun payload hm => (h.composed payload hm).of_eq hz.1 hz.2
  · intro d hd
    rw [hr] at hd
    obtain ⟨c, hc, rfl⟩ := List.mem_map.1 hd
    obtain ⟨hi, -, -, ha⟩ := hf c hc
    rw [hi]
    exact ha

theorem Sound.of_stays (h : s.Sound) {room : Room} (hc : room.canvas = s.room.canvas)
    (hm : room.maxClients = s.room.maxClients) {f : Connection → Connection}
    (hr : room.connections = s.room.connections.map f)
    (hf : ∀ c ∈ s.room.connections, c.Stays (f c)) : (s.setRoom room).Sound := by
  refine h.of_map ⟨congrArg Canvas.width hc, congrArg Canvas.height hc⟩ hm rfl rfl h.pictures hr ?_
  intro c hcm
  have hs := hf c hcm
  refine ⟨hs.id, hs.listed, ?_, (h.accounts c hcm).stays hs⟩
  intro ha
  rcases hs.phase with hp | ⟨hp, -, hl⟩
  · exact absurd ha (Connection.ne_of_isLeaving hp).2
  · exact hl.trans (h.room.listed c hcm (hp ▸ ha))

theorem Sound.modify (h : s.Sound) (id : Nat) {f : Connection → Connection × List Event}
    (hf : ∀ c : Connection, c.Stays (f c).1) : (s.setRoom (s.room.modify id f).1).Sound := by
  unfold Room.modify
  split
  · exact h
  · rename_i c hm
    obtain ⟨hcm, -, -⟩ := Room.mem_of_member? hm
    have hs := hf c
    exact h.of_stays rfl rfl (s.room.put_eq_map _)
      (h.room.put_cases hcm hs.id hs fun b _ _ => .refl b)

theorem Sound.connect (h : s.Sound) {id : Nat} (hi : s.room.connection? id = none) (peer : String)
    {socket : Socket} (hs : socket.received = []) : (s.connect id peer socket).Sound := by
  have hroom : (s.connect id peer socket).room = (s.room.accept id peer socket).1 := rfl
  have hp : ∀ i picture, (s.connect id peer socket).opened i = some picture →
      ∃ canvas : Canvas, canvas.snapshot = picture := by
    intro i picture ho
    change update s.opened id none i = some picture at ho
    rw [Function.update_apply] at ho
    split at ho
    · simp at ho
    · exact h.pictures i picture ho
  -- The newcomer's id is new.
  have hold : ∀ c ∈ s.room.connections, c.Accounts ((s.connect id peer socket).heard c.id)
      ((s.connect id peer socket).opened c.id) := by
    intro c hc
    have hne := Room.ne_of_connection? hi hc
    change c.Accounts (update s.heard id [] c.id) (update s.opened id none c.id)
    rw [Function.update_of_ne hne, Function.update_of_ne hne]
    exact h.accounts c hc
  have ho := h.room.accept hi peer socket
  rcases s.room.accept_cases id peer socket with he | ⟨-, d, hd, he⟩
  · rw [he] at hroom ho
    exact ⟨hroom ▸ ho, hroom ▸ h.clients, hroom ▸ h.drained, hroom ▸ h.composed, hp, hroom ▸ hold⟩
  · rw [he] at hroom ho
    refine ⟨hroom ▸ ho, hroom ▸ h.clients, hroom ▸ h.drained, hroom ▸ h.composed, hp, ?_⟩
    intro c hc
    rw [hroom] at hc
    rcases List.mem_append.1 hc with hc | hc
    · exact hold c hc
    · have hnew : (s.room.newcomer id peer socket).Accounts [] none := by
        refine ⟨by simp [Room.newcomer, Connection.new], fun _ => ⟨rfl, ?_, .inl ⟨rfl, rfl, rfl⟩⟩⟩
        rw [Connection.given, Room.newcomer, Connection.new, hs]
        rfl
      rw [List.mem_singleton.1 hc, hd.id_eq]
      change d.Accounts (update s.heard id [] id) (update s.opened id none id)
      rw [Function.update_self, Function.update_self]
      rcases hd with rfl | rfl
      · exact hnew
      · exact hnew.stays (Connection.stays_release rfl)

theorem perform_data_eq {r : Room} {id : Nat} {c : Connection} (hm : r.member? id = some c)
    (bytes : Bytes) : (r.perform (.data id bytes)).1.maxClients = r.maxClients ∧
      (r.perform (.data id bytes)).1.connections =
        (r.put (c.visited r.canvas r.site bytes).1).connections ∧
      (r.perform (.data id bytes)).2 = (c.visited r.canvas r.site bytes).2 := by
  rw [Room.perform, Room.receive_of_member hm]
  exact ⟨rfl, rfl, rfl⟩

theorem Sound.isLeaving (h : s.Sound) {c : Connection} (hc : c ∈ s.room.connections)
    (hl : c.listed = false) : c.phase.isLeaving = true := by
  apply Classical.byContradiction
  intro hp
  have ha := h.accounts c hc
  rcases (ha.cases hp).2 with ⟨hph, ho⟩ | ⟨hph, -⟩
  · rw [ho] at ha
    have := (ha.2 hph).1
    simp [hl] at this
  · have := h.room.listed c hc hph
    simp [hl] at this

theorem data_of_ne (s : Transcript) (id : Nat) (bytes : Bytes) {i : Nat} (hi : i ≠ id) :
    (s.data id bytes).heard i = s.heard i ∧ (s.data id bytes).opened i = s.opened i := by
  refine ⟨Function.update_of_ne hi _ _, ?_⟩
  simp only [Transcript.data]
  split
  · exact Function.update_of_ne hi _ _
  · rfl

theorem data_self (s : Transcript) (id : Nat) (bytes : Bytes) :
    (s.data id bytes).heard id = s.heard id ++ bytes ∧
      (s.data id bytes).opened id =
        if .upgraded id ∈ (s.room.perform (.data id bytes)).2 then some s.room.canvas.snapshot
        else s.opened id := by
  refine ⟨Function.update_self .., ?_⟩
  simp only [Transcript.data]
  split
  · exact Function.update_self ..
  · rfl

theorem Sound.pictures_data (h : s.Sound) (id : Nat) (bytes : Bytes) {i : Nat} {picture : Snapshot}
    (hi : (s.data id bytes).opened i = some picture) :
    ∃ canvas : Canvas, canvas.snapshot = picture := by
  by_cases he : i = id
  · rw [he, (s.data_self id bytes).2] at hi
    split at hi
    · exact ⟨_, Option.some.inj hi⟩
    · exact h.pictures id picture hi
  · rw [(s.data_of_ne id bytes he).2] at hi
    exact h.pictures i picture hi

theorem Sound.data_of_unclaimed (h : s.Sound) {id : Nat} (hm : s.room.member? id = none)
    (bytes : Bytes) : (s.data id bytes).Sound := by
  obtain ⟨hh, ho⟩ := s.data_self id bytes
  have hr : s.room.perform (.data id bytes) = (s.room, [.unclaimed id bytes.length]) := by
    rw [Room.perform, Room.receive, hm]
  rw [hr, if_neg (by simp)] at ho
  have hroom : (s.data id bytes).room = s.room := congrArg Prod.fst hr
  refine h.of_map (hroom ▸ .refl _) (by rw [hroom]) rfl rfl (fun _ _ => h.pictures_data id bytes)
    (f := fun c => c) (by rw [hroom, List.map_id']) ?_
  intro c hc
  refine ⟨rfl, fun hl => hl, h.room.listed c hc, ?_⟩
  have ha := h.accounts c hc
  by_cases hi : c.id = id
  · have hl : c.listed = false := by
      have hcon := h.room.connection?_eq hc
      rw [hi] at hcon
      rw [Room.member?, hcon] at hm
      simpa using hm
    rw [hi, hh, ho, ← hi]
    exact ha.hears (h.isLeaving hc hl) bytes
  · obtain ⟨hh, ho⟩ := s.data_of_ne id bytes hi
    rw [hh, ho]
    exact ha

theorem Sound.data_of_member (h : s.Sound) {id : Nat} {c : Connection}
    (hm : s.room.member? id = some c) (bytes : Bytes) : (s.data id bytes).Sound := by
  obtain ⟨hcm, rfl, hl⟩ := Room.mem_of_member? hm
  obtain ⟨hh, ho⟩ := s.data_self c.id bytes
  obtain ⟨hmax, hr, he⟩ := perform_data_eq hm bytes
  obtain ⟨hvi, hva⟩ := (h.accounts c hcm).visited_keeps hl s.room.canvas s.room.site bytes
  have hacc := (h.accounts c hcm).visited hl s.room.canvas s.room.site bytes
  generalize c.visited s.room.canvas s.room.site bytes = result at hr he hvi hva hacc
  obtain ⟨d, events⟩ := result
  rw [he] at ho
  dsimp only at ho hvi hva hacc hr
  refine h.of_map (s.room.sameSize_perform (.data c.id bytes)) hmax rfl rfl
    (fun _ _ => h.pictures_data c.id bytes) (hr.trans (s.room.put_eq_map d)) ?_
  refine h.room.put_cases (motive := fun b b' => b'.id = b.id ∧
    (b'.listed = true → b.listed = true) ∧ (b'.phase = .active → b'.listed = true) ∧
      b'.Accounts ((s.data c.id bytes).heard b.id) ((s.data c.id bytes).opened b.id)) hcm hvi ?_ ?_
  · refine ⟨hvi, fun _ => hl, hva, ?_⟩
    rw [hh, ho]
    exact hacc
  · intro b hb hne
    obtain ⟨hh, ho⟩ := s.data_of_ne c.id bytes hne
    rw [hh, ho]
    exact ⟨rfl, fun hl => hl, h.room.listed b hb, h.accounts b hb⟩

theorem Sound.data (h : s.Sound) (id : Nat) (bytes : Bytes) : (s.data id bytes).Sound := by
  cases hm : s.room.member? id with
  | none => exact h.data_of_unclaimed hm bytes
  | some c => exact h.data_of_member hm bytes

theorem Sound.broadcast (h : s.Sound) {payload : Bytes} (hp : payload ∈ s.composed) :
    (s.setRoom (s.room.perform (.broadcast payload)).1).Sound := by
  have ht := h.composed payload hp
  obtain ⟨d, hd, -⟩ := ht.ofJson_eq
  have hs : (Reply.delta payload).IsSound := Reply.isSound_delta ht.length_lt hd
  have ho : Reply.OpenTalk [] [.delta payload] :=
    ⟨List.forall_mem_singleton.2 hs, rfl, by simp⟩
  refine h.of_map (.refl _) rfl rfl rfl h.pictures (s.room.connections_fanOut _) ?_
  intro c hc
  split
  · rename_i hact
    obtain ⟨hl, ha⟩ := Room.isActive_iff.1 hact
    have hq := Connection.queues_post hl (by rw [ha]; rfl) (Room.textFrame payload)
    refine ⟨hq.id, hq.listed, fun hp => (hq.active hp).1.trans hl, ?_⟩
    have hpost := (h.accounts c hc).post hl ha ho
    rw [Reply.bytes_delta] at hpost
    exact hpost
  · exact ⟨rfl, fun hl => hl, h.room.listed c hc, h.accounts c hc⟩

theorem Sound.drain (h : s.Sound) : s.drain.Sound := by
  refine ⟨⟨h.room.ids, h.room.listed, h.room.crowd⟩, h.clients, ?_, ?_, h.pictures, h.accounts⟩
  · intro ps hps
    rcases List.mem_cons.1 hps with rfl | hps
    · exact s.room.canvas.lists_announcements.length
    · exact h.drained ps hps
  · exact fun payload hm => (h.composed payload hm).of_eq rfl rfl

theorem Sound.handOff (h : s.Sound) (lanes : Lanes) {ps : List Pixel} (hps : ps ∈ s.drained) :
    (s.handOff lanes ps).Sound := by
  have hz : s.room.canvas.SameSize (s.handOff lanes ps).room.canvas :=
    s.room.sameSize_handOff lanes ps
  have hd : (Delta.mk s.room.activeCount ps).clients ≤ maxWord64 :=
    Nat.le_trans s.room.activeCount_le (Nat.le_trans h.room.crowd h.clients)
  have ht : s.room.canvas.Tells (Delta.toJson ⟨s.room.activeCount, ps⟩) :=
    ⟨_, rfl, hd, h.drained ps hps⟩
  obtain ⟨hm, hc⟩ : (s.handOff lanes ps).room.maxClients = s.room.maxClients ∧
      (s.handOff lanes ps).room.connections = s.room.connections := by
    simp only [Transcript.handOff]
    rcases s.room.handOff_cases lanes ps with ⟨-, hr⟩ | ⟨-, _, _, -, hr⟩ | ⟨_, hr⟩ <;> rw [hr] <;>
      exact ⟨rfl, rfl⟩
  refine ⟨h.room.rests (f := id) (by rw [hc, List.map_id]) hm fun c _ => .refl c, hm ▸ h.clients,
    ?_, ?_, h.pictures, hc ▸ h.accounts⟩
  · rw [Canvas.area_eq_of_eq hz.1 hz.2]
    exact h.drained
  · intro payload hp
    rcases List.mem_cons.1 hp with rfl | hp
    · exact ht.of_eq hz.1 hz.2
    · exact (h.composed payload hp).of_eq hz.1 hz.2

theorem sound_of_step (h : s.Sound) (hs : Step s t) : t.Sound := by
  cases hs with
  | connect id peer socket hi hr => exact h.connect hi peer hr
  | data id bytes => exact h.data id bytes
  | hangUp id => exact h.modify id fun c => c.stays_teardown _
  | broadcast payload hp => exact h.broadcast hp
  | drain => exact h.drain
  | handOff lanes ps hps => exact h.handOff lanes hps
  | writable id => exact h.modify id Connection.stays_writable
  | writableAll =>
    refine h.of_stays rfl rfl (f := fun c => (if Room.hasEdge c then c.writable else (c, [])).1)
      (List.map_map ..) ?_
    intro c _
    split
    · exact c.stays_writable
    · exact .refl c
  | teardown id reason => exact h.modify id fun c => c.stays_teardown reason
  | teardownAll reason =>
    exact h.of_stays rfl rfl (List.map_map ..) fun c _ => c.stays_teardown reason
  | stand id standing =>
    unfold Room.stand
    split
    · exact h
    · rename_i c hc
      obtain ⟨hcm, -⟩ := Room.mem_of_connection? hc
      have hs : c.Stays { c with socket := { c.socket with standing } } :=
        ⟨rfl, fun hl => hl, rfl, .inr ⟨rfl, rfl, rfl⟩⟩
      exact h.of_stays rfl rfl (s.room.put_eq_map _)
        (h.room.put_cases hcm hs.id hs fun b _ _ => .refl b)
  | refile files => exact h.of_stays rfl rfl (List.map_id' _).symm fun c _ => .refl c

theorem sound_of_reachable (h : Reachable s) : s.Sound := by
  induction h with
  | @start room hr hm =>
    have hn : ∀ c, c ∉ room.connections := fun c hc => by simp [hr] at hc
    refine ⟨⟨?_, fun c hc => absurd hc (hn c), ?_⟩, hm, nofun, nofun, nofun,
      fun c hc => absurd hc (hn c)⟩
    · change (room.connections.map _).Nodup
      rw [hr]
      exact List.nodup_nil
    · change room.memberCount ≤ _
      rw [Room.memberCount, Room.members, hr]
      exact Nat.zero_le _
  | step _ hs ih => exact sound_of_step ih hs

/-- In every reachable state whoever is active was upgraded. Whoever was upgraded, when the canvas
showed some picture, has been given the answer to the key of its request, whose head ends where the
answer does, and behind it nothing but whole frames of the server that bring this picture first. -/
theorem stream_of_opened (h : Reachable s) {c : Connection} (hc : c ∈ s.room.connections) :
    (c.phase = .active → (s.opened c.id).isSome = true) ∧
    ∀ picture, s.opened c.id = some picture → ∃ request key n first frames,
      Handshake.headEnd? (s.heard c.id) = some n ∧
      Request.parse ((s.heard c.id).take n) = .ok request ∧ Handshake.key? request = some key ∧
      let response := Handshake.upgradeResponse (Handshake.acceptKey key)
      response <+: c.given ∧ Handshake.headEnd? c.given = some response.length ∧
      Frame.split (c.given.drop response.length) = (first :: frames, [], none) ∧
      Frame.IsStream picture (pingsBehind n (s.heard c.id)) first frames := by
  have hsound := sound_of_reachable h
  have ha := hsound.accounts c hc
  constructor
  · intro hp
    rcases (ha.cases (by rw [hp]; nofun)).2 with ⟨hph, -⟩ | ⟨-, picture, ho⟩
    · rw [hp] at hph
      simp at hph
    · rw [ho]
      rfl
  · intro picture ho
    rw [ho] at ha
    obtain ⟨-, response, n, replies, hs⟩ := ha
    obtain ⟨canvas, rfl⟩ := hsound.pictures _ _ ho
    obtain ⟨hn, request, key, hr, hk, rfl⟩ := Handshake.exists_key_of_process hs.request
    have hd : Snapshot.decode canvas.snapshot.encode = .ok canvas.snapshot :=
      Snapshot.decode_encode canvas.length_pixels_snapshot
    have hb : Opcode.binary.isControl = true → canvas.snapshot.encode.length ≤ 125 := nofun
    refine ⟨request, key, n, _, _, hn, hr, hk, ?_, ?_, ?_, hs.talk.isStream hd⟩
    · rw [hs.given]
      exact List.prefix_append _ _
    · rw [hs.given]
      exact Handshake.headEnd?_upgradeResponse key _
    · rw [hs.given, List.drop_left, Frame.split_encode_append canvas.length_encode_snapshot_lt hb,
        Reply.split_flatMap hs.talk.sound]

theorem stream_of_opened_one_client : ∃ s, Reachable s ∧ ∃ c ∈ s.room.connections,
    c.phase = .active ∧ ∃ picture, s.opened c.id = some picture ∧ ∃ n response first frames,
      response <+: c.given ∧ Handshake.headEnd? c.given = some response.length ∧
      Frame.split (c.given.drop response.length) = (first :: frames, [], none) ∧
      Frame.IsStream picture (pingsBehind n (s.heard c.id)) first frames := by
  obtain ⟨canvas, ha⟩ : ∃ c : Canvas, c.area = 2 :=
    ⟨⟨2, 1, .replicate 2 Palette.white, .replicate 2 none, 0, rfl, rfl,
      fun _ hc => (Array.mem_replicate.1 hc).2 ▸ Palette.has_white, by decide⟩, rfl⟩
  have hmax : (Room.new canvas 1 1024 4096 none).maxClients ≤ maxWord64 :=
    show 1 ≤ maxWord64 by decide
  let client := { Connection.new 1 "peer" .fresh 1024 4096 with listed := true }
  obtain ⟨s, hs, hroom, hcanvas⟩ : ∃ s, Reachable s ∧ s.room.connections = [client] ∧
      s.room.canvas = canvas :=
    ⟨_, (Reachable.start rfl hmax).step (.connect _ 1 "peer" .fresh rfl rfl), rfl, rfl⟩
  have hc : s.room.connection? 1 = some client := by
    rw [Room.connection?, hroom]
    rfl
  have hm : s.room.member? 1 = some client := by
    rw [Room.member?, hc]
    rfl
  -- The client asks to be upgraded, and neither the answer nor the picture is too long.
  let request := Handshake.upgradeRequest "h" "/" "k"
  have hr : Handshake.IsUpgrade request := Handshake.isUpgrade_upgradeRequest
  have hl : request.length ≤ 1024 := by decide +kernel
  have hp : (Frame.encode .binary s.room.canvas.snapshot.encode).length ≤ 4096 := by
    rw [hcanvas, Frame.encode, Frame.length_encodeWith, Snapshot.length_encode,
      Canvas.length_pixels_snapshot, ha]
    decide
  have hi : client.IsIdle := ⟨⟨rfl, rfl, rfl⟩, rfl⟩
  obtain ⟨hph, hid⟩ := hi.visited_of_isUpgrade s.room.canvas s.room.site rfl rfl hr hl
    (by decide) hp
  have hd := (Room.mem_of_connection? (Room.connection?_put hc hid)).1
  rw [← (perform_data_eq hm request).2.1] at hd
  have ht := hs.step (.data s 1 request)
  obtain ⟨hopen, hstream⟩ := stream_of_opened ht hd
  obtain ⟨picture, ho⟩ := Option.isSome_iff_exists.1 (hopen hph)
  obtain ⟨_, _, n, first, frames, -, -, -, hresponse⟩ := hstream picture ho
  exact ⟨_, ht, _, hd, hph, picture, ho, n, _, first, frames, hresponse⟩

end Transcript
end SharedCanvas
