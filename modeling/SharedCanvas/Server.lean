import SharedCanvas.Config.Basic
import SharedCanvas.Saver
import SharedCanvas.Service

namespace SharedCanvas

inductive HostFault
  | permissionDenied
  | addressInUse
  | addressNotAvailable
  | networkUnreachable
  | other (text : String)
deriving DecidableEq, Repr

def HostFault.message : HostFault → String
  | .permissionDenied => "Permission denied (os error 13)"
  | .addressInUse => "Address already in use (os error 98)"
  | .addressNotAvailable => "Cannot assign requested address (os error 99)"
  | .networkUnreachable => "Network is unreachable (os error 101)"
  | .other text => text

/-- What the host of a server allows. -/
structure Host where
  /-- What listening on an address and a port comes to. -/
  listen : String → UInt16 → Except HostFault Unit
  /-- What reaching a server on the host itself comes to. -/
  dial : Except HostFault Unit

namespace Host

def firstOpenPort : Nat := 1024

/-- A host that holds every address, for a server without privileges. Port zero stands for any
port that is free. -/
def unprivileged : Host where
  listen _ port :=
    if port ≠ 0 ∧ port.toNat < firstOpenPort then .error .permissionDenied else .ok ()
  dial := .ok ()

end Host

inductive StartError
  | config (e : ConfigError)
  | bind (address : String) (fault : HostFault)
  | size (e : CanvasError)
  | snapshot (e : CanvasError)
deriving DecidableEq, Repr

def StartError.chain : StartError → List String
  | .config e => [e.message]
  | .bind address fault => ["failed to bind " ++ address, fault.message]
  | .size e => ["invalid canvas size", e.message]
  | .snapshot e => ["snapshot rejected", e.message]

/-- The canvas that a server starts with. A picture of other dimensions and a file that cannot be
read are passed over. -/
def loadCanvas (c : Config) (fs : FileSystem) : Except StartError Canvas :=
  let blank := (Canvas.blank c.width c.height Palette.white).mapError .size
  match c.snapshotPath with
  | none => blank
  | some path =>
    match (SnapshotFile.mk (Bytes.ofString path)).load fs with
    | .ok (some s) =>
      if s.width = c.width ∧ s.height = c.height then (Canvas.ofSnapshot s).mapError .snapshot
      else blank
    | _ => blank

/-- The saves that there can be at the end of a server. -/
inductive FinalSave
  /-- The one that the timer has begun. -/
  | begun
  /-- The one that is made at the end. -/
  | last
deriving DecidableEq, Repr

namespace FinalSave

def picture (v : Saver) (c : Canvas) : FinalSave → Snapshot
  | begun => v.leftPicture c
  | last => c.snapshot

/-- Where the saves stand when the last one is called. -/
def start (v : Saver) (fs : FileSystem) : Saves FinalSave where
  files := fs
  stage
    | begun => v.left
    | last => .called

def inTurn : List FinalSave := [begun, begun, last, last]

end FinalSave

structure Server where
  config : Config
  service : Service
  files : FileSystem
  saver : Option Saver
  /-- What the timer has taken from the canvas and has not handed to the lanes yet. -/
  ticker : Option (List Pixel)
  /-- The snapshot timer has looked at the canvas for the first time. -/
  looked : Bool
  nextId : Nat

namespace Server

def readChunk : Nat := 8192

def start (h : Host) (c : Config) (fs : FileSystem) : Except StartError Server := do
  c.check.mapError .config
  (h.listen c.bindAddress c.port).mapError (.bind c.address)
  let canvas ← loadCanvas c fs
  return {
    config := c
    service := {
      room := .new canvas c.maxClients c.recvBuffer c.outboxLimit
        (c.staticDir.map fun dir => ⟨Bytes.ofString dir, fs⟩)
      lanes := .start c.workers c.queueCapacity }
    files := fs
    saver := c.snapshotPath.map fun path => .start ⟨Bytes.ofString path⟩ canvas
    ticker := none
    looked := false
    nextId := 1 }

def room (s : Server) : Room := s.service.room

def canvas (s : Server) : Canvas := s.room.canvas

def withRoom (s : Server) (room : Room) : Server := { s with service := { s.service with room } }

/-- The files are these from now on, and those that are served are read from them. -/
def withFiles (s : Server) (files : FileSystem) : Server :=
  { s.withRoom (s.room.withFiles files) with files }

def offer (s : Server) (task : Task) : Server × List Event :=
  let (service, events) := s.service.offer task
  ({ s with service }, events)

def perform (s : Server) (task : Task) : Server × List Event :=
  let (service, events) := s.service.perform task
  ({ s with service }, events)

/-- A client comes. The id that it got is returned too; ids are never used again. -/
def connect (s : Server) (peer : String) (socket : Socket) : Server × Nat × List Event :=
  let (s', events) := s.perform (.connect s.nextId peer socket)
  ({ s' with nextId := s.nextId + 1 }, s.nextId, events)

/-- Bytes arrive. They are read piece by piece, as long as the connection is in the registry. -/
def receive (s : Server) (id : Nat) (bytes : Bytes) : Server × List Event :=
  (blocks (readChunk - 1) bytes).foldl (fun (s, events) piece =>
    if (s.room.member? id).isNone then (s, events)
    else
      let (s, more) := s.perform (.data id piece)
      (s, events ++ more)) (s, [])

def hangUp (s : Server) (id : Nat) : Server × List Event := s.perform (.hangUp id)

def writable (s : Server) : Server × List Event :=
  let (room, events) := s.room.writableAll
  (s.withRoom room, events)

def tick (s : Server) : Server × Nat × List Event :=
  let (service, count, events) := s.service.tick
  ({ s with service }, count, events)

def drain (s : Server) : Server :=
  { s.withRoom s.room.drain.1 with ticker := some s.room.drain.2 }

def handOff (s : Server) (pixels : List Pixel) : Server :=
  let (room, lanes, _, _) := s.room.handOff s.service.lanes pixels
  { s with service := ⟨room, lanes⟩, ticker := none }

def withSaver (s : Server) (result : Saver × FileSystem × List Event) : Server :=
  { s.withFiles result.2.1 with saver := some result.1 }

/-- The snapshot timer begins. What it sees at its first look counts as saved. -/
def look (s : Server) : Server :=
  { s with saver := s.saver.map fun v => .start v.file s.canvas, looked := true }

def save (s : Server) : Server × List Event :=
  match s.saver with
  | none => (s, [])
  | some saver =>
    let result := saver.period s.canvas s.files
    (s.withSaver result, result.2.2)

/-- The timers are stopped. What is queued is done, and everyone is sent away. -/
def close (s : Server) : Server × List Event :=
  let (service, events) := s.service.workAll
  let (room, more) := service.room.teardownAll .shutdown
  ({ s with service := ⟨room, service.lanes.close⟩ }, events ++ more)

/-- The end: the canvas is saved once more. To stop a timer does not stop the save that it has
begun, and nobody waits for that one, so the steps of the two saves may come in any order. Where
they stand after these steps is returned too. -/
def shutdown (s : Server) (order : List FinalSave := FinalSave.inTurn) :
    Server × (FinalSave → Stage) :=
  let (s, _) := s.close
  match s.saver with
  | none => (s, fun _ => .ended (.ok ()))
  | some v =>
    let saves := (FinalSave.start v s.files).run v.file (FinalSave.picture v s.canvas) order
    (s.withFiles saves.files, saves.stage)

def stopChain (chain : List String) : List String := "final snapshot failed" :: chain

end Server
end SharedCanvas
