import SharedCanvas.Connection.Basic
import SharedCanvas.Storage.SnapshotFile
import SharedCanvas.TaskQueue

namespace SharedCanvas

/-- Why a connection was closed. -/
inductive Reason
  | error (e : SessionError)
  | flushed
  | handshakeComplete
  | peerClosed
  | peerClosedMidMessage
  | other (text : String)
deriving DecidableEq, Repr

def Reason.message : Reason → String
  | .error e => e.message
  | .flushed => "closed after flush"
  | .handshakeComplete => "close handshake complete"
  | .peerClosed => "peer closed the connection"
  | .peerClosedMidMessage => "peer closed mid-message"
  | .other text => text

def Reason.shutdown : Reason := .other "server shutting down"

/-- Bytes of the peer are lost. -/
def Reason.queueFull : Reason := .other "task queue full"

def Reason.unwatched : Reason := .other "readiness registration failed"

inductive Event
  | accepted (id : Nat) (peer : String)
  | refused (id : Nat) (peer : String) (e : SessionError)
  /-- The lanes have not taken a newcomer. -/
  | turnedAway (peer : String) (e : QueueFault)
  | upgraded (id : Nat)
  | served (id : Nat) (method path : String) (length : Nat)
  | failed (id : Nat) (e : SessionError)
  | sendFailed (id : Nat) (e : SessionError)
  | unsent (id : Nat) (count : Nat)
  | closed (id : Nat) (peer : String) (reason : Reason)
  | rejected (id : Nat) (e : CanvasError)
  | applied (id : Nat) (count total : Nat)
  | badText (id : Nat)
  | sentClose (id : Nat) (code : Option UInt16)
  | unclaimed (id : Nat) (count : Nat)
  | unqueued (id : Nat) (count : Nat) (e : QueueFault)
  | broadcast (length delivered dropped : Nat)
  | scheduled (updates clients : Nat)
  | deferred (e : QueueFault) (updates : Nat)
  | saved (cells : Nat)
  | unsaved (chain : List String)
deriving DecidableEq, Repr

def showCode : Option UInt16 → String
  | none => "None"
  | some code => "Some(" ++ toString code.toNat ++ ")"

def Event.message : Event → String
  | .accepted id peer => s!"connection {idText id} accepted from {peer}"
  | .refused id peer e => s!"rejecting connection {idText id} from {peer}: {e.message}"
  | .turnedAway peer e => s!"dropping connection from {peer}: {e.message}"
  | .upgraded id => s!"connection {idText id} upgraded"
  | .served id method path n => s!"connection {idText id} {method} {path} -> {n} bytes"
  | .failed id e => s!"connection {idText id}: {e.message}"
  | .sendFailed id e => s!"connection {idText id} send failed: {e.message}"
  | .unsent id n => s!"connection {idText id} closing with {n} bytes unsent"
  | .closed id peer reason => s!"connection {idText id} ({peer}) closed: {reason.message}"
  | .rejected id e => s!"connection {idText id} rejected update: {e.message}"
  | .applied id n total => s!"connection {idText id} applied {n}/{total} updates"
  | .badText id => s!"connection {idText id} bad text message"
  | .sentClose id code => s!"connection {idText id} sent close ({showCode code})"
  | .unclaimed id n => s!"dropping {n} bytes for closed connection {idText id}"
  | .unqueued id n e => s!"connection {idText id}: {n} read bytes not queued ({e.message})"
  | .broadcast n delivered dropped =>
    s!"broadcast {n} bytes: delivered {delivered}, dropped {dropped}"
  | .scheduled updates clients => s!"scheduled delta of {updates} updates for {clients} clients"
  | .deferred e updates => s!"delta not scheduled ({e.message}), deferring {updates} updates"
  | .saved cells => s!"snapshot written ({cells} cells)"
  | .unsaved chain => "snapshot save failed: " ++ ": ".intercalate chain

/-- Worth a line also where not everything is written down. -/
def Event.isNotable : Event → Bool
  | .accepted .. | .refused .. | .turnedAway .. | .upgraded _ | .sendFailed .. | .closed ..
  | .unqueued .. | .deferred .. | .saved _ | .unsaved _ => true
  | .failed _ (.bufferOverflow ..) | .failed _ (.slowConsumer ..) => true
  | _ => false

end SharedCanvas
