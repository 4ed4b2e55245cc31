import SharedCanvas.Frame.Basic

namespace SharedCanvas.Frame

/-- What the first two bytes of a frame say. -/
structure Head where
  fin : Bool
  opcode : UInt8
  masked : Bool
  base : UInt8
deriving DecidableEq, Repr

namespace Head

def ofBytes (b0 b1 : UInt8) : Head where
  fin := b0 &&& 0x80 != 0
  opcode := b0 &&& 0x0F
  masked := b1 &&& 0x80 != 0
  base := b1 &&& 0x7F

/-- The length field after the first two bytes. -/
def extension (h : Head) : Nat :=
  if h.base = 126 then 2 else if h.base = 127 then 8 else 0

def keyLength (h : Head) : Nat := if h.masked then 4 else 0

def length (h : Head) : Nat := 2 + h.extension + h.keyLength

def payloadLength (h : Head) (rest : Bytes) : Nat :=
  if h.extension = 0 then h.base.toNat else Bytes.toNatBE (rest.take h.extension)

/-- Control frames stand alone and are short. -/
def breaksControl (h : Head) (n : Nat) : Bool :=
  (Opcode.ofCode? h.opcode).any Opcode.isControl && (!h.fin || 125 < n)

end Head

inductive Decoded
  /-- At least so many bytes have still to come. -/
  | incomplete (needed : Nat)
  /-- A frame, and the number of bytes it took. -/
  | complete (frame : Frame) (consumed : Nat)
deriving DecidableEq, Repr

/-- The frame at the front of the bytes. Faults are looked for in the order of the fields. -/
def decode : Bytes → Except ProtocolError Decoded
  | [] => .ok (.incomplete 2)
  | [_] => .ok (.incomplete 1)
  | b0 :: b1 :: rest =>
    if b0 &&& 0x70 ≠ 0 then .error (.reservedBits (b0 &&& 0x70))
    else
      let head := Head.ofBytes b0 b1
      let extra := head.extension + head.keyLength
      match Bytes.missing extra rest with
      | m + 1 => .ok (.incomplete (m + 1))
      | 0 =>
        let n := head.payloadLength rest
        if Nat.pow 2 63 ≤ n then .error (.invalidLength n)
        else if head.breaksControl n then .error (.invalidControl head.opcode head.fin n)
        else
          let body := rest.drop extra
          match Bytes.missing n body with
          | m + 1 => .ok (.incomplete (m + 1))
          | 0 =>
            let payload := body.take n
            let key := MaskKey.ofBytes (rest.drop head.extension)
            .ok (.complete
              ⟨head.fin, head.opcode, head.masked,
                if head.masked then key.apply payload else payload⟩
              (head.length + n))

theorem consumed_of_decode {buf : Bytes} {f : Frame} {n : Nat}
    (h : decode buf = .ok (.complete f n)) : 2 ≤ n ∧ n ≤ buf.length := by
  unfold decode at h
  split at h
  · simp at h
  · simp at h
  · split at h
    · simp at h
    · dsimp only at h
      split at h
      · simp at h
      · rename_i hx
        split at h
        · simp at h
        · split at h
          · simp at h
          · split at h
            · simp at h
            · rename_i hm
              simp only [Except.ok.injEq, Decoded.complete.injEq] at h
              simp only [Bytes.missing_eq, List.length_drop] at hx hm
              obtain ⟨_, rfl⟩ := h
              simp only [Head.length, List.length_cons]
              omega

theorem length_drop_lt_of_decode {buf : Bytes} {f : Frame} {n : Nat}
    (h : decode buf = .ok (.complete f n)) : (buf.drop n).length < buf.length := by
  have := consumed_of_decode h
  simp only [List.length_drop]
  omega

end SharedCanvas.Frame
