import SharedCanvas.Connection.Socket

namespace SharedCanvas

structure Outbox where
  /-- Oldest first; the first may have gone in part. -/
  frames : List Bytes
  /-- The most bytes that may wait. -/
  limit : Nat
deriving DecidableEq, Repr

namespace Outbox

def queued (o : Outbox) : Nat := o.frames.flatten.length

/-- Writes frames until all are gone, the socket is full or a write fails. -/
def writeFrames (frames : List Bytes) (s : Socket) : List Bytes × Socket × Option SocketFault :=
  match frames with
  | [] => ([], s, none)
  | frame :: rest =>
    match _h : s.write frame with
    | (.failed fault, s') => (frames, s', some fault)
    | (.wouldBlock, s') => (frames, s', none)
    | (.interrupted, s') => writeFrames (frame :: rest) s'
    | (.took n, s') =>
      if n = 0 then (frames, s', some .writeZero)
      else if n < frame.length then writeFrames (frame.drop n :: rest) s'
      else writeFrames rest s'
termination_by s.script.length + frames.length
decreasing_by
  all_goals
    rcases Socket.script_write ‹_› with h | ⟨h, hw⟩
    · simp only [List.length_cons]
      omega
    · simp_all

def flush (o : Outbox) (s : Socket) : Outbox × Socket × Option SocketFault :=
  let (frames, s', fault) := writeFrames o.frames s
  ({ o with frames }, s', fault)

end Outbox
end SharedCanvas
