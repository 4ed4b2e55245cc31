import SharedCanvas.Connection.Membership
import SharedCanvas.Connection.Visit
import SharedCanvas.Lanes

namespace SharedCanvas

structure Room where
  canvas : Canvas
  /-- Every connection that was ever taken in, oldest first. Those in the registry are listed. -/
  connections : List Connection
  maxClients : Nat
  recvCapacity : Nat
  outboxLimit : Nat
  site : Option Site

/-- How a frame for all was received. -/
structure FanOut where
  delivered : Nat
  dropped : Nat
deriving DecidableEq, Repr

namespace Room

def new (canvas : Canvas) (maxClients recvCapacity outboxLimit : Nat) (site : Option Site) : Room :=
  { canvas, connections := [], maxClients, recvCapacity, outboxLimit, site }

def members (r : Room) : List Connection := r.connections.filter (·.listed)

def memberCount (r : Room) : Nat := r.members.length

def isActive (c : Connection) : Bool := c.listed && c.phase == .active

def activeCount (r : Room) : Nat := r.connections.countP isActive

/-- The connection of that id, whether it is still listed or not. -/
def connection? (r : Room) (id : Nat) : Option Connection := r.connections.find? fun c => c.id == id

def member? (r : Room) (id : Nat) : Option Connection := (r.connection? id).filter (·.listed)

def put (r : Room) (c : Connection) : Room :=
  { r with connections := r.connections.map fun d => if d.id = c.id then c else d }

/-- Begins to watch the socket of a newcomer. If that fails, the newcomer is torn down again. -/
def watch (c : Connection) : Connection × List Event :=
  match c.socket.unwatchable with
  | none => (c, [.accepted c.id c.peer])
  | some fault =>
    let (c, _, events) := c.teardown .unwatched
    (c, events ++ [.refused c.id c.peer (.socket fault)])

/-- Takes a connection in, unless the room is full. -/
def insert (r : Room) (c : Connection) : Except SessionError (Room × List Event) :=
  if r.memberCount ≥ r.maxClients then .error (.serverFull r.maxClients)
  else
    let (c, events) := watch { c with listed := true }
    .ok ({ r with connections := r.connections ++ [c] }, events)

def accept (r : Room) (id : Nat) (peer : String) (socket : Socket) : Room × List Event :=
  match r.insert (.new id peer socket r.recvCapacity r.outboxLimit) with
  | .error e => (r, [.refused id peer e])
  | .ok result => result

def modify (r : Room) (id : Nat) (f : Connection → Connection × List Event) : Room × List Event :=
  match r.member? id with
  | none => (r, [])
  | some c =>
    let (c, events) := f c
    (r.put c, events)

def teardown (r : Room) (id : Nat) (reason : Reason) : Room × List Event :=
  r.modify id fun c =>
    let (c, _, events) := c.teardown reason
    (c, events)

def teardownAll (r : Room) (reason : Reason) : Room × List Event :=
  let results := r.connections.map fun c => c.teardown reason
  ({ r with connections := results.map (·.1) }, results.flatMap (·.2.2))

def settle (c : Connection) : Option Halt → Connection × List Event
  | none => (c, [])
  | some .leave => c.finish
  | some (.fail e) =>
    let (c, events) := c.drop e
    (c, .failed c.id e :: events)

def receive (r : Room) (id : Nat) (bytes : Bytes) : Room × List Event :=
  match r.member? id with
  | none => (r, [.unclaimed id bytes.length])
  | some c =>
    let (v, halt) := (Visit.mk r.canvas c #[]).receive r.site bytes
    let (c, events) := settle v.conn halt
    ({ r with canvas := v.canvas }.put c, v.events.toList ++ events)

def hangUp (r : Room) (id : Nat) : Room × List Event :=
  r.modify id fun c =>
    let (c, _, events) :=
      c.teardown (if c.inbox.midUnit then .peerClosedMidMessage else .peerClosed)
    (c, events)

/-- Queues a frame for everyone who is active. Who fails is torn down, and the others still get
theirs. -/
def fanOut (r : Room) (frame : Bytes) : Room × FanOut × List Event :=
  let results := r.connections.map fun c =>
    if isActive c then
      let (c, delivered, events) := c.post frame
      (c, some delivered, events)
    else (c, none, [])
  ({ r with connections := results.map (·.1) },
    ⟨results.countP fun x => x.2.1 == some true, results.countP fun x => x.2.1 == some false⟩,
    results.flatMap (·.2.2))

def textFrame (payload : Bytes) : Bytes := Frame.encode .text payload

def broadcast (r : Room) (payload : Bytes) : Room × List Event :=
  let (r, report, events) := r.fanOut (textFrame payload)
  (r, events ++ [.broadcast payload.length report.delivered report.dropped])

/-- What becomes of a task that the lanes have not taken. A stream from which bytes are lost can no
longer be understood. -/
def turnAway (r : Room) (rejection : Rejection Task) : Room × List Event :=
  match rejection.item with
  | .connect _ peer _ => (r, [.turnedAway peer rejection.fault])
  | .data id bytes =>
    let (r, events) := r.teardown id .queueFull
    (r, .unqueued id bytes.length rejection.fault :: events)
  | .hangUp id => r.teardown id .peerClosed
  | .broadcast _ => (r, [])

def perform (r : Room) : Task → Room × List Event
  | .connect id peer socket => r.accept id peer socket
  | .data id bytes => r.receive id bytes
  | .hangUp id => r.hangUp id
  | .broadcast payload => r.broadcast payload

def drain (r : Room) : Room × List Pixel :=
  let (canvas, pixels) := r.canvas.drain
  ({ r with canvas }, pixels)

/-- The second half of a tick: hands one delta to the lanes. What they refuse is to be announced
again. The number of pixels that were handed over is returned too. -/
def handOff (r : Room) (lanes : Lanes) (pixels : List Pixel) :
    Room × Lanes × Nat × List Event :=
  if pixels.isEmpty then (r, lanes, 0, [])
  else
    match lanes.submit (.broadcast (Delta.toJson ⟨r.activeCount, pixels⟩)) with
    | .ok lanes => (r, lanes, pixels.length, [.scheduled pixels.length r.activeCount])
    | .error rejection =>
      ({ r with canvas := r.canvas.restore pixels }, lanes, 0,
        [.deferred rejection.fault pixels.length])

def withFiles (r : Room) (files : FileSystem) : Room :=
  { r with site := r.site.map fun site => { site with files } }

/-- The connection waits to write, and its socket takes bytes. -/
def hasEdge (c : Connection) : Bool :=
  c.listed && !c.outbox.frames.isEmpty && c.socket.standing == .ready && !c.socket.shut

def writableAll (r : Room) : Room × List Event :=
  let results := r.connections.map fun c => if hasEdge c then c.writable else (c, [])
  ({ r with connections := results.map (·.1) }, results.flatMap (·.2))

def collect (r : Room) : Room × List (Nat × Bytes) :=
  ({ r with connections := r.connections.map fun c => { c with socket := c.socket.collect.2 } },
    (r.connections.map fun c => (c.id, c.socket.collect.1)).filter fun x => !x.2.isEmpty)

def stand (r : Room) (id : Nat) (standing : Standing) : Room :=
  match r.connection? id with
  | none => r
  | some c => r.put { c with socket := { c.socket with standing } }

/-- A connection that is over, and with it the last of what its peer was given. -/
def isGone (c : Connection) : Bool :=
  c.socket.shut && c.socket.received.isEmpty && c.socket.standing != .full

def sweep (r : Room) : Room × List Nat :=
  ({ r with connections := r.connections.filter fun c => !isGone c },
    (r.connections.filter isGone).map (·.id))

end Room
end SharedCanvas
