import SharedCanvas.Bytes

namespace SharedCanvas

inductive SocketFault
  | brokenPipe
  | connectionReset
  | writeZero
  | noSpace
deriving DecidableEq, Repr

def SocketFault.message : SocketFault → String
  | .brokenPipe => "Broken pipe (os error 32)"
  | .connectionReset => "Connection reset by peer (os error 104)"
  | .writeZero => "write zero"
  | .noSpace => "No space left on device (os error 28)"

/-- What a write comes to. -/
inductive Written
  | took (count : Nat)
  | wouldBlock
  | interrupted
  | failed (fault : SocketFault)
deriving DecidableEq, Repr

/-- How a socket meets every write. -/
inductive Standing
  /-- Takes all that it is offered. -/
  | ready
  | full
  | broken
deriving DecidableEq, Repr

/-- The answers to the writes that come next, and the standing answer to those after them. -/
structure Socket where
  script : List Written
  standing : Standing
  /-- What the peer has been given. -/
  received : Bytes
  /-- No more is taken, and the peer sees the end of the stream. -/
  shut : Bool
  /-- Why its readiness cannot be watched, if it cannot. -/
  unwatchable : Option SocketFault
deriving DecidableEq, Repr

namespace Socket

def fresh : Socket := ⟨[], .ready, [], false, none⟩

def collect (s : Socket) : Bytes × Socket := (s.received, { s with received := [] })

/-- Offers bytes. A socket takes no more than it is offered. -/
def write (s : Socket) (bytes : Bytes) : Written × Socket :=
  if s.shut then (.failed .brokenPipe, s)
  else
    match s.script with
    | .took n :: script =>
      (.took (min n bytes.length), { s with script, received := s.received ++ bytes.take n })
    | result :: script => (result, { s with script })
    | [] =>
      match s.standing with
      | .ready => (.took bytes.length, { s with received := s.received ++ bytes })
      | .full => (.wouldBlock, s)
      | .broken => (.failed .brokenPipe, s)

theorem script_write {s s' : Socket} {bytes : Bytes} {w : Written} (h : s.write bytes = (w, s')) :
    s'.script.length < s.script.length ∨
      s'.script = s.script ∧ (w = .took bytes.length ∨ w = .wouldBlock ∨ ∃ f, w = .failed f) := by
  unfold write at h
  split at h
  · simp only [Prod.mk.injEq] at h
    obtain ⟨rfl, rfl⟩ := h
    exact .inr ⟨rfl, .inr (.inr ⟨_, rfl⟩)⟩
  · split at h
    · rename_i hs
      simp only [Prod.mk.injEq] at h
      obtain ⟨_, rfl⟩ := h
      simp [hs]
    · rename_i hs
      simp only [Prod.mk.injEq] at h
      obtain ⟨_, rfl⟩ := h
      simp [hs]
    · split at h <;> simp only [Prod.mk.injEq] at h <;> obtain ⟨rfl, rfl⟩ := h <;> simp

end Socket
end SharedCanvas
