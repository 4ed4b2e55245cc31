import SharedCanvas.Canvas.Basic
import SharedCanvas.Canvas.Binary
import SharedCanvas.Canvas.Json
import SharedCanvas.Event
import SharedCanvas.Frame.Encode
import SharedCanvas.Frame.Pump
import SharedCanvas.Handshake
import SharedCanvas.Http.Site

namespace SharedCanvas

/-- The canvas and one connection while its bytes are handled, and what there is to report, oldest
first. -/
structure Visit where
  canvas : Canvas
  conn : Connection
  events : Array Event

/-- How the handling of bytes ends, if the connection does not just go on. -/
inductive Halt
  /-- The connection is to be closed once its outbox is empty. -/
  | leave
  | fail (e : SessionError)
deriving DecidableEq, Repr

namespace Visit

def report (v : Visit) (e : Event) : Visit := { v with events := v.events.push e }

def send (v : Visit) (bytes : Bytes) : Visit × Option SessionError :=
  let (conn, e) := v.conn.send bytes
  ({ v with conn }, e)

def reply (v : Visit) (bytes : Bytes) (next : Option Halt) : Visit × Option Halt :=
  match v.send bytes with
  | (v', some e) => (v', some (.fail e))
  | (v', none) => (v', next)

def apply (v : Visit) (pixels : List Pixel) : Visit :=
  if pixels.isEmpty then v
  else
    let (canvas, count, refused) := v.canvas.paintAll pixels
    let id := v.conn.id
    { v with
      canvas
      events := (v.events ++ (refused.map (Event.rejected id)).toArray).push
        (.applied id count pixels.length) }

def setAssembler (v : Visit) (assembler : Assembler) : Visit :=
  { v with conn := { v.conn with inbox := { v.conn.inbox with assembler } } }

def setMidUnit (v : Visit) (midUnit : Bool) : Visit :=
  { v with conn := { v.conn with inbox := { v.conn.inbox with midUnit } } }

def setStaged (v : Visit) (staged : Bytes) : Visit :=
  { v with conn := { v.conn with inbox := { v.conn.inbox with staged } } }

def obey (v : Visit) : Message → Visit × Option Halt
  | .binary payload => (v.apply (Pixel.ofRecords payload), none)
  | .text payload =>
    let (pixels, fault) := Pixel.ofText payload
    let v := if fault.isSome then v.report (.badText v.conn.id) else v
    (v.apply pixels, none)
  | .ping payload => v.reply (Frame.encode .pong payload) none
  | .close code =>
    let v := v.report (.sentClose v.conn.id code)
    let answer := Frame.encode .close (Frame.closePayload Frame.closeNormal)
    let (v, halt) := v.reply answer (some .leave)
    (if halt = some .leave then v.setMidUnit false else v, halt)

def takeFrame (v : Visit) (frame : Frame) : Visit × Option Halt :=
  match v.conn.inbox.assembler.push frame with
  | .error e => (v, some (.fail (.protocol e)))
  | .ok (assembler, none) => (v.setAssembler assembler, none)
  | .ok (assembler, some message) => (v.setAssembler assembler).obey message

def takeFrames (v : Visit) : Visit × Option Halt :=
  let (v, staged, stop) := Frame.pump takeFrame v v.conn.inbox.staged
  let v := v.setStaged staged
  match stop with
  | .halted halt => (v, some halt)
  | .malformed e => (v, some (.fail (.protocol e)))
  | .starved _ => (v.setMidUnit (!staged.isEmpty || v.conn.inbox.assembler.isPartial), none)

/-- Sends the whole picture and makes the connection eligible for deltas. Nothing can be drained
between the two. -/
def sendPicture (v : Visit) : Visit × Option SessionError :=
  match v.send (Frame.encode .binary v.canvas.snapshot.encode) with
  | (v', some e) => (v', some e)
  | (v', none) => ({ v' with conn := v'.conn.advance .active }, none)

def serve (v : Visit) (site : Option Site) (request : Request) : Visit × Option Halt :=
  match site with
  | none => (v, some (.fail .notWebSocket))
  | some site =>
    let response := site.respond request
    (v.report (.served v.conn.id request.method request.path response.length)).reply response
      (some .leave)

/-- Reads the opening request, and what comes after it. -/
def greet (v : Visit) (site : Option Site) : Visit × Option Halt :=
  match Handshake.process v.conn.inbox.staged with
  | .error e => (v, some (.fail (.handshake e)))
  | .ok .incomplete => (v.setMidUnit true, none)
  | .ok (.plain request consumed) =>
    ((v.setStaged (v.conn.inbox.staged.drop consumed)).setMidUnit false).serve site request
  | .ok (.upgraded response consumed) =>
    match (v.setStaged (v.conn.inbox.staged.drop consumed)).send response with
    | (v, some e) => (v, some (.fail e))
    | (v, none) =>
      match v.sendPicture with
      | (v, some e) => (v, some (.fail e))
      | (v, none) => (v.report (.upgraded v.conn.id)).takeFrames

/-- Handles bytes that have arrived. A connection that is leaving takes none. -/
def receive (v : Visit) (site : Option Site) (bytes : Bytes) : Visit × Option Halt :=
  if v.conn.phase.isLeaving then (v, none)
  else
    match v.conn.inbox.append bytes with
    | .error e => (v, some (.fail e))
    | .ok inbox =>
      let v := { v with conn := { v.conn with inbox } }
      if v.conn.phase = .handshaking then v.greet site else v.takeFrames

end Visit
end SharedCanvas
