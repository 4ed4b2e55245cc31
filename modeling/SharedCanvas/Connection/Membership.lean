import SharedCanvas.Event

namespace SharedCanvas.Connection

/-- Whether the connection was still listed is returned too. -/
def teardown (c : Connection) (reason : Reason) : Connection × Bool × List Event :=
  if c.listed then (c.release, true, [.closed c.id c.peer reason]) else (c, false, [])

def drop (c : Connection) (e : SessionError) : Connection × List Event :=
  let (c, _, events) := c.teardown (.error e)
  (c, events)

def post (c : Connection) (bytes : Bytes) : Connection × Bool × List Event :=
  match c.send bytes with
  | (c, none) => (c, true, [])
  | (c, some e) =>
    let (c, events) := c.drop e
    (c, false, .sendFailed c.id e :: events)

/-- The socket takes bytes again: writes what waits, and ends a close that waited for it. -/
def writable (c : Connection) : Connection × List Event :=
  match c.flush with
  | (c, .error e) => c.drop e
  | (c, .ok .finished) =>
    let (c, _, events) := c.teardown .handshakeComplete
    (c, events)
  | (c, .ok _) => (c, [])

/-- Begins to close; with nothing left to write, that is also the end. -/
def finish (c : Connection) : Connection × List Event :=
  match c.closeAfterFlush with
  | (c, true) =>
    let (c, _, events) := c.teardown .flushed
    (c, events)
  | (c, false) => (c, [.unsent c.id c.outbox.queued])

end SharedCanvas.Connection
