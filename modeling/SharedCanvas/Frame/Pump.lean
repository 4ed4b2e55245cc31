import SharedCanvas.Frame.Decode

namespace SharedCanvas.Frame

/-- Why no further frame was taken. -/
inductive Stop (ε : Type) where
  /-- At least so many bytes of the next frame have still to come. -/
  | starved (needed : Nat)
  | malformed (e : ProtocolError)
  /-- The last frame said so. -/
  | halted (e : ε)
deriving DecidableEq, Repr

/-- Hands every whole frame at the front of `buf` to `step`, until it halts. What is left of the
bytes is returned too. -/
def pump {σ ε : Type} (step : σ → Frame → σ × Option ε) (s : σ) (buf : Bytes) :
    σ × Bytes × Stop ε :=
  match _h : decode buf with
  | .error e => (s, buf, .malformed e)
  | .ok (.incomplete needed) => (s, buf, .starved needed)
  | .ok (.complete frame consumed) =>
    match step s frame with
    | (s', some e) => (s', buf.drop consumed, .halted e)
    | (s', none) => pump step s' (buf.drop consumed)
termination_by buf.length
decreasing_by exact length_drop_lt_of_decode ‹_›

end SharedCanvas.Frame
