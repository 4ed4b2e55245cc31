import SharedCanvas.CommandLine
import Std.Async
open Std.Async

namespace SharedCanvas.Program

abbrev Client := TCP.Socket.Client

/-- The server, and the socket of every connection. -/
structure Hub where
  server : Server
  clients : List (Nat × Client)
  /-- The timers have been stopped. -/
  stopped : Bool

abbrev Shared := Std.Mutex Hub

/-- What is to be done for the peers after a step. -/
structure Errands where
  events : List Event
  deliveries : List (Nat × Client × Bytes)
  farewells : List Client

namespace Hub

/-- Takes up what the peers are to be given; their sockets are busy until it is carried. -/
def collect (h : Hub) (events : List Event) : Hub × Errands :=
  let (room, given) := h.server.room.collect
  let busy := given.foldl (fun r (id, _) => r.stand id .full) room
  let (kept, gone) := busy.sweep
  let find := fun id => h.clients.lookup id
  ({ h with
      server := h.server.withRoom kept
      clients := h.clients.filter fun c => !gone.contains c.1 },
    { events
      deliveries := given.filterMap fun (id, bytes) => (find id).map fun c => (id, c, bytes)
      farewells := gone.filterMap find })

def step (h : Hub) (f : Server → Server × List Event) : Hub × Errands :=
  let (server, events) := f h.server
  { h with server }.collect events

def join (h : Hub) (peer : String) (client : Client) : Hub × Nat × Errands :=
  let (server, id, events) := h.server.connect peer .fresh
  let accepted := (server.room.member? id).isSome
  let clients := if accepted then (id, client) :: h.clients else h.clients
  let (hub, errands) := { h with server, clients }.collect events
  (hub, id, if accepted then errands else { errands with farewells := client :: errands.farewells })

def withSaver {α : Type} (h : Hub) (f : Saver → Canvas → Saver × α) : Hub × Option α :=
  match h.server.saver with
  | none => (h, none)
  | some v =>
    let (v, a) := f v h.server.canvas
    ({ h with server := { h.server with saver := some v } }, some a)

/-- A connection that may ask for a file. -/
def isAsking (h : Hub) (id : Nat) : Bool :=
  h.server.config.staticDir.isSome &&
    (h.server.room.member? id).any fun c => c.phase == .handshaking

end Hub

def carried (id : Nat) (s : Server) : Server × List Event :=
  (s.withRoom (s.room.stand id .ready)).writable

def broken (id : Nat) (s : Server) : Server × List Event :=
  (s.withRoom (s.room.stand id .broken)).hangUp id

def say (events : List Event) : IO Unit :=
  (events.filter Event.isNotable).forM fun e => IO.println e.message

def update {α : Type} (hub : Shared) (f : Hub → Hub × α) : IO α :=
  hub.atomically do
    let (h, a) := f (← get)
    set h
    return a

def farewell (client : Client) : Async Unit := do
  try client.shutdown catch _ => pure ()

mutual

partial def advance (hub : Shared) (f : Server → Server × List Event) : Async Unit := do
  perform hub (← update hub fun h => h.step f)

partial def perform (hub : Shared) (errands : Errands) : Async Unit := do
  say errands.events
  errands.deliveries.forM fun (id, client, bytes) => background (deliver hub id client bytes)
  errands.farewells.forM fun client => background (farewell client)

partial def deliver (hub : Shared) (id : Nat) (client : Client) (bytes : Bytes) : Async Unit := do
  let sent ← try client.send ⟨bytes.toArray⟩; pure true catch _ => pure false
  advance hub (if sent then carried id else broken id)

end

partial def readTree (fs : FileSystem) (dir : String) : IO FileSystem := do
  let place ← IO.FS.realPath dir
  let mut fs := fs
  for entry in ← place.readDir do
    let path := dir ++ "/" ++ entry.fileName
    if ← entry.path.isDir then fs ← readTree fs path
    else
      try fs := fs.install (Bytes.ofString path) (← IO.FS.readBinFile entry.path).data.toList
      catch _ => pure ()
  return fs

def readFiles (c : Config) : IO FileSystem := do
  let mut fs := FileSystem.empty
  if let some path := c.snapshotPath then
    let name := Bytes.ofString path
    fs ←
      try pure (fs.install name (← IO.FS.readBinFile path).data.toList)
      catch _ => pure (fs.prepare name)
  if let some dir := c.staticDir then
    fs ← try readTree fs dir catch _ => pure fs
  return fs

/-- Hands over what a client sends, until it ends. A request is answered from the files as they are
when it comes. -/
partial def listen (hub : Shared) (id : Nat) (client : Client) : Async Unit := do
  let piece ← try client.recv? (UInt64.ofNat Server.readChunk) catch _ => pure none
  match piece with
  | some bytes =>
    let bytes := bytes.data.toList
    let (asking, config) ← update hub fun h => (h, h.isAsking id, h.server.config)
    if asking then
      let files ← readFiles config
      advance hub fun s => (s.withFiles files).receive id bytes
    else advance hub fun s => s.receive id bytes
    listen hub id client
  | none => advance hub fun s => s.hangUp id

partial def accept (hub : Shared) (socket : TCP.Socket.Server) : Async Unit := do
  let client ← socket.accept
  let peer ← try pure (toString (← client.getPeerName)) catch _ => pure "?"
  let (id, errands) ← update hub fun h => h.join peer client
  perform hub errands
  background (listen hub id client)
  accept hub socket

partial def every (hub : Shared) (millis : Nat) (act : Async Unit) : Async Unit := do
  sleep (Std.Time.Millisecond.Offset.ofNat millis)
  unless ← update hub fun h => (h, h.stopped) do
    act
    every hub millis act

def fileChain (path : Bytes) (e : IO.Error) : List String :=
  [StoreError.onPath path (toString e), toString e]

def store (file : SnapshotFile) (picture : Snapshot) : IO (Except (List String) Unit) := do
  let name := fun path => (Bytes.toString? path).getD ""
  try IO.FS.writeBinFile (name file.draftPath) ⟨picture.toJson.toArray⟩
  catch e => return .error (fileChain file.draftPath e)
  try IO.FS.rename (name file.draftPath) (name file.path)
  catch e => return .error (fileChain file.path e)
  return .ok ()

/-- The snapshot timer fires. Others go on painting while the picture is written. -/
def save (hub : Shared) : Async Unit := do
  let copied ← update hub fun h => h.withSaver fun v canvas =>
    let v := (v.note canvas).copy canvas
    (v, v)
  let some v := copied | return
  let .copied _ picture := v.stage | return
  let result ← store v.file picture
  let events ← update hub fun h => h.withSaver fun v _ => v.ended result
  say (events.getD [])

def keep (hub : Shared) (millis : Nat) : Async Unit := do
  advance hub fun s => (s.look, [])
  every hub millis (save hub)

/-- The end of a server. The result is that of the last save. -/
def stop (hub : Shared) : Async (Except (List String) Unit) := do
  let errands ← update hub fun h =>
    let (server, events) := h.server.close
    { h with server, stopped := true }.collect events
  perform hub errands
  let last ← update hub fun h => h.withSaver fun v canvas => (v, v.file, canvas.snapshot)
  let some (file, picture) := last | return .ok ()
  match ← store file picture with
  | .ok () => say [.saved picture.pixels.length]; return .ok ()
  | .error chain => return .error chain

/-- The number of the fault that an address is not held; its sign is not to be relied on. -/
def isAddressNotAvailable (code : UInt32) : Bool := code == 99 || code + 99 == 0

def hostFault : IO.Error → HostFault
  | .permissionDenied .. => .permissionDenied
  | .resourceBusy .. => .addressInUse
  | .unsupportedOperation code text =>
    if isAddressNotAvailable code then .addressNotAvailable else .other text
  | e => .other (toString e)

def backlog : UInt32 := 1024

def bind (c : Config) : IO (TCP.Socket.Server × Except HostFault Unit) := do
  let socket ← TCP.Socket.Server.mk
  try
    let addresses ← (DNS.getAddrInfo c.bindAddress (toString c.port.toNat)).block
    match addresses.toList with
    | .v4 address :: _ => socket.bind (.v4 ⟨address, c.port⟩)
    | .v6 address :: _ => socket.bind (.v6 ⟨address, c.port⟩)
    | [] => throw (IO.userError "failed to lookup address information")
    socket.listen backlog
    return (socket, .ok ())
  catch e => return (socket, .error (hostFault e))

def serve (server : Server) (socket : TCP.Socket.Server) : Async (Except (List String) Unit) := do
  let hub ← Std.Mutex.new (Hub.mk server [] false)
  background (accept hub socket)
  background (every hub server.config.broadcastMillis (advance hub fun s =>
    let (s, _, events) := s.tick
    (s, events)))
  background (keep hub server.config.snapshotMillis)
  let interrupt ← Signal.Waiter.mk .sigint false
  discard (await (← interrupt.wait))
  stop hub

def run (args : List String) : IO UInt32 := do
  let known ← Config.variableNames.filterMapM fun name => do
    return (← IO.getEnv name).map fun value => (name, Bytes.ofString value)
  match CommandLine.prepare (fun name => known.lookup name) args with
  | .usage => IO.eprintln CommandLine.usageText; return 2
  | .help => IO.println CommandLine.helpText; return 0
  | .version => IO.println CommandLine.versionText; return 0
  | .failed chain => IO.eprint (CommandLine.report chain); return 1
  | .ready message c =>
    IO.println message
    let (socket, bound) ← bind c
    match Server.start { listen := fun _ _ => bound, dial := .ok () } c (← readFiles c) with
    | .error e => IO.eprint (CommandLine.report e.chain); return 1
    | .ok server =>
      match ← (serve server socket).block with
      | .ok () => return 0
      | .error chain => IO.eprint (CommandLine.report (Server.stopChain chain)); return 1

end SharedCanvas.Program

def main (args : List String) : IO UInt32 := SharedCanvas.Program.run args
