import SharedCanvas.Proofs.Broadcast.Waiting
import SharedCanvas.Proofs.Connection.Given
import SharedCanvas.Proofs.Canvas.Overlay
import SharedCanvas.Proofs.Server.Load

namespace SharedCanvas

def Frame.payloadOf (opcode : Opcode) (bytes : Bytes) : Option Bytes :=
  match decode bytes with
  | .ok (.complete f n) =>
    if f.fin ∧ f.opcode = opcode.code ∧ n = bytes.length then some f.payload else none
  | _ => none

namespace Snapshot

def hear (s : Snapshot) (payload : Bytes) : Option Snapshot :=
  (Delta.ofJson payload).toOption.map fun d => s.overlay d.pixels

/-- The picture after a frame has been read: a delta changes it, and a pong does not. -/
def hearFrame (s : Snapshot) (frame : Bytes) : Option Snapshot :=
  match Frame.payloadOf .text frame with
  | some payload => s.hear payload
  | none => (Frame.payloadOf .pong frame).map fun _ => s

/-- The picture that a client has from its frames: the first brings one, the others change it. -/
def shown : List Bytes → Option Snapshot
  | [] => none
  | first :: deltas =>
    ((Frame.payloadOf .binary first).bind fun payload => (decode payload).toOption).bind
      fun s => deltas.foldlM hearFrame s

end Snapshot

/-- A server between two steps. -/
structure Live extends Service where
  /-- What the ticker has drained and not yet handed off, while it is between the two. -/
  drained : Option (List Pixel)
  /-- What each connection was queued since it was last sent the picture: that frame, and the deltas
  and pongs after it. -/
  queued : Nat → List Bytes

namespace Canvas

theorem announcements_eq_nil {c : Canvas} {n : Nat} (h : c.pending = .replicate n none) :
    c.announcements = [] := by
  rw [announcements, List.filterMap_eq_nil_iff]
  intro i _
  rw [h, Array.getElem?_replicate]
  split <;> rfl

theorem announcements_of_blank {w h : UInt16} {color : UInt8} {c : Canvas}
    (hc : blank w h color = .ok c) : c.announcements = [] := by
  unfold blank at hc
  split at hc
  · simp at hc
  · split at hc
    · rw [Except.ok.injEq] at hc
      subst hc
      exact announcements_eq_nil rfl
    · simp at hc

end Canvas

namespace Live

/-- The picture of a connection, with all that is still on its way to it: the deltas in the lane,
what the ticker has in its hands, and what the canvas has to announce. -/
def view (s : Live) (id : Nat) : Option Snapshot :=
  ((Snapshot.shown (s.queued id)).bind fun picture =>
    s.lanes.payloads.foldlM Snapshot.hear picture).map
    fun picture => (picture.overlay (s.drained.getD [])).overlay s.room.canvas.announcements

def setRoom (s : Live) (room : Room) : Live := { s with room }

def setLanes (s : Live) (lanes : Lanes) : Live := { s with lanes }

def paint (s : Live) (ps : List Pixel) : Live :=
  s.setRoom { s.room with canvas := (s.room.canvas.paintAll ps).1 }

def drain (s : Live) : Live :=
  { s with room := s.room.drain.1, drained := some s.room.drain.2 }

def handOff (s : Live) (ps : List Pixel) : Live :=
  let result := s.room.handOff s.lanes ps
  { s with room := result.1, lanes := result.2.1, drained := none }

def picture (s : Live) : Bytes := Frame.encode .binary s.room.canvas.snapshot.encode

def welcome (s : Live) (c : Connection) : Live :=
  let result := (Visit.mk s.room.canvas c #[]).sendPicture
  { s with
    room := s.room.put (Room.settle result.1.conn (result.2.map .fail)).1
    queued := fun id => if id = c.id then [s.picture] else s.queued id }

def broadcast (s : Live) (payload : Bytes) (lanes : Lanes) : Live :=
  { s with
    room := (s.room.broadcast payload).1
    lanes
    queued := fun id =>
      if (s.room.connection? id).any Room.isActive then s.queued id ++ [Room.textFrame payload]
      else s.queued id }

/-- A connection has become another, and is sent a pong for each of these pings. -/
def answer (s : Live) (d : Connection) (pings : List Bytes) : Live :=
  { s with
    room := s.room.put d
    queued := fun id =>
      if id = d.id then s.queued id ++ pings.map (Frame.encode .pong) else s.queued id }

/-- One step of the server. There is one ticker, so nothing is drained before what was drained has
been handed off. Connections come and go, and tasks of connections pass through the lanes. What else
a connection does does not make it active and queues nothing for it but pongs. -/
inductive Step : Live → Live → Prop
  | paint (s : Live) (ps : List Pixel) : Step s (s.paint ps)
  | drain (s : Live) (h : s.drained = none) : Step s s.drain
  | handOff (s : Live) (ps : List Pixel) (h : s.drained = some ps) : Step s (s.handOff ps)
  | welcome (s : Live) (id : Nat) (c : Connection) (h : s.room.member? id = some c) :
    Step s (s.welcome c)
  | broadcast (s : Live) (payload : Bytes) (lanes : Lanes)
    (h : s.lanes.take 0 = some (.broadcast payload, lanes)) : Step s (s.broadcast payload lanes)
  | answer (s : Live) (c d : Connection) (pings : List Bytes) (hc : c ∈ s.room.connections)
    (hp : ∀ ping ∈ pings, ping.length ≤ 125)
    (hd : c.Queues (pings.flatMap (Frame.encode .pong)) d)
    (ha : d.phase = .active → c.phase = .active) : Step s (s.answer d pings)
  | accept (s : Live) (id : Nat) (peer : String) (socket : Socket)
    (h : s.room.connection? id = none) : Step s (s.setRoom (s.room.accept id peer socket).1)
  | teardown (s : Live) (id : Nat) (reason : Reason) :
    Step s (s.setRoom (s.room.teardown id reason).1)
  | writable (s : Live) : Step s (s.setRoom s.room.writableAll.1)
  | stand (s : Live) (id : Nat) (standing : Standing) :
    Step s (s.setRoom (s.room.stand id standing))
  | submit (s : Live) (task : Task) (id : Nat) (lanes : Lanes) (ht : task.connection? = some id)
    (h : s.lanes.submit task = .ok lanes) : Step s (s.setLanes lanes)
  | take (s : Live) (lane : Nat) (task : Task) (id : Nat) (lanes : Lanes)
    (ht : task.connection? = some id) (h : s.lanes.take lane = some (task, lanes)) :
    Step s (s.setLanes lanes)
  | close (s : Live) : Step s (s.setLanes s.lanes.close)
  | refile (s : Live) (files : FileSystem) : Step s (s.setRoom (s.room.withFiles files))

def start (service : Service) : Live := { service with drained := none, queued := fun _ => [] }

/-- Nobody is connected, and there is nothing to tell. -/
structure Fresh (service : Service) : Prop where
  connections : service.room.connections = []
  lanes : service.lanes.payloads = []
  canvas : service.room.canvas.announcements = []
  maxClients : service.room.maxClients ≤ maxWord64

theorem fresh_of_start {h : Host} {c : Config} {fs : FileSystem} {server : Server}
    (hs : Server.start h c fs = .ok server) (hm : c.maxClients ≤ maxWord64) :
    Fresh server.service := by
  obtain ⟨hc, -, canvas, hl, rfl⟩ := Server.start_eq_ok_iff.1 hs
  obtain ⟨-, -, hu, -⟩ := of_loadCanvas_eq_ok hc hl
  exact ⟨rfl, Lanes.payloads_start _ _, hu.announcements_eq_nil, hm⟩

inductive Reachable : Live → Prop
  | start {service : Service} (h : Fresh service) : Reachable (start service)
  | step {s t : Live} (hs : Reachable s) (h : Step s t) : Reachable t

end Live
end SharedCanvas
