import SharedCanvas.Connection.Outbox
import SharedCanvas.Http.Request
import SharedCanvas.Message

namespace SharedCanvas

/-- What ends a connection. -/
inductive SessionError
  | handshake (e : HandshakeError)
  | protocol (e : ProtocolError)
  | bufferOverflow (length capacity : Nat)
  | slowConsumer (queued limit : Nat)
  | notWebSocket
  | serverFull (limit : Nat)
  | socket (fault : SocketFault)
deriving DecidableEq, Repr

def SessionError.message : SessionError → String
  | .handshake e => "handshake failed: " ++ e.message
  | .protocol e => "protocol error: " ++ e.message
  | .bufferOverflow n capacity => s!"receive buffer overflow ({n} bytes, capacity {capacity})"
  | .slowConsumer queued limit => s!"slow consumer ({queued} bytes queued, limit {limit})"
  | .notWebSocket => "not a websocket upgrade request"
  | .serverFull limit => s!"server full ({limit} connections)"
  | .socket fault => "socket error: " ++ fault.message

/-- The stations of a connection's life, in their order. -/
inductive Phase
  | handshaking
  /-- Eligible for deltas. -/
  | active
  /-- Takes no more input, and goes when its outbox is empty. -/
  | closing
  | closed
deriving DecidableEq, Repr

namespace Phase

def rank : Phase → Nat
  | handshaking => 0
  | active => 1
  | closing => 2
  | closed => 3

def ofByte (n : UInt8) : Phase :=
  match n.toNat with
  | 0 => handshaking
  | 1 => active
  | 2 => closing
  | _ => closed

/-- Nothing more is taken in or queued. -/
def isLeaving (p : Phase) : Bool := closing.rank ≤ p.rank

theorem ofByte_rank (p : Phase) : ofByte (UInt8.ofNat p.rank) = p := by cases p <;> rfl

end Phase

/-- Bytes that have arrived and are not yet understood. -/
structure Inbox where
  staged : Bytes
  /-- The most bytes that may be staged, and the longest message. -/
  capacity : Nat
  assembler : Assembler
  /-- The start of something has come of which the rest has not. -/
  midUnit : Bool
deriving DecidableEq, Repr

namespace Inbox

def new (capacity : Nat) : Inbox := ⟨[], capacity, .new capacity, false⟩

/-- Stages bytes behind those that are left over. Nothing is cut off to make them fit. -/
def append (i : Inbox) (bytes : Bytes) : Except SessionError Inbox :=
  let length := i.staged.length + bytes.length
  if length > i.capacity then .error (.bufferOverflow length i.capacity)
  else .ok { i with staged := i.staged ++ bytes }

end Inbox

structure Connection where
  id : Nat
  peer : String
  phase : Phase
  inbox : Inbox
  outbox : Outbox
  socket : Socket
  /-- The connection is in the registry. -/
  listed : Bool
deriving DecidableEq, Repr

def idText (id : Nat) : String := "#" ++ toString id

inductive FlushStatus
  | idle
  /-- Some bytes wait for the socket. -/
  | pending
  /-- All is written and the connection is closing. -/
  | finished
deriving DecidableEq, Repr

namespace Connection

def new (id : Nat) (peer : String) (socket : Socket) (capacity limit : Nat) : Connection where
  id
  peer
  phase := .handshaking
  inbox := .new capacity
  outbox := ⟨[], limit⟩
  socket
  listed := false

/-- Moves on to a later phase; there is no way back. -/
def advance (c : Connection) (next : Phase) : Connection :=
  if c.phase.rank < next.rank then { c with phase := next } else c

def write (c : Connection) : Connection × Option SessionError :=
  let (outbox, socket, fault) := c.outbox.flush c.socket
  ({ c with outbox, socket }, fault.map .socket)

/-- Queues bytes, unless the connection is leaving, and writes what the socket takes. The limit is
looked at before anything is written. -/
def send (c : Connection) (bytes : Bytes) : Connection × Option SessionError :=
  if bytes.isEmpty || c.phase.isLeaving then (c, none)
  else
    let queued := c.outbox.queued + bytes.length
    if queued > c.outbox.limit then (c, some (.slowConsumer queued c.outbox.limit))
    else { c with outbox := { c.outbox with frames := c.outbox.frames ++ [bytes] } }.write

def flush (c : Connection) : Connection × Except SessionError FlushStatus :=
  match c.write with
  | (c', some e) => (c', .error e)
  | (c', none) =>
    (c', .ok <|
      if !c'.outbox.frames.isEmpty then .pending
      else if c'.phase = .closing then .finished
      else .idle)

/-- Takes no more input. Whether nothing is left to write is returned too. -/
def closeAfterFlush (c : Connection) : Connection × Bool :=
  (c.advance .closing, c.outbox.frames.isEmpty)

/-- The end: out of the registry, and the socket shut. -/
def release (c : Connection) : Connection :=
  { c.advance .closed with
    listed := false
    socket := { c.socket with shut := true } }

end Connection
end SharedCanvas
