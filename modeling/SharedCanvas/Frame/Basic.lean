import SharedCanvas.Text.Number

namespace SharedCanvas

inductive Opcode
  | continuation
  | text
  | binary
  | close
  | ping
  | pong
deriving DecidableEq, Repr

namespace Opcode

def code : Opcode → UInt8
  | continuation => 0
  | text => 1
  | binary => 2
  | close => 8
  | ping => 9
  | pong => 10

def ofCode? (n : UInt8) : Option Opcode :=
  [continuation, text, binary, close, ping, pong].find? fun o => o.code == n

def isControl : Opcode → Bool
  | close | ping | pong => true
  | _ => false

theorem ofCode?_code (o : Opcode) : ofCode? o.code = some o := by cases o <;> rfl

theorem code_of_ofCode? {n : UInt8} {o : Opcode} (h : ofCode? n = some o) : o.code = n := by
  simpa using List.find?_some h

theorem isControl_iff (o : Opcode) : o.isControl ↔ 8 ≤ o.code.toNat := by cases o <;> decide

end Opcode

/-- A frame with its payload in the clear. Opcodes without a meaning are kept as they came. -/
structure Frame where
  fin : Bool
  opcode : UInt8
  masked : Bool
  payload : Bytes
deriving DecidableEq, Repr

def Frame.kind? (f : Frame) : Option Opcode := Opcode.ofCode? f.opcode

/-- The four bytes that a client masks a payload with. -/
structure MaskKey where
  b0 : UInt8
  b1 : UInt8
  b2 : UInt8
  b3 : UInt8
deriving DecidableEq, Repr

namespace MaskKey

def byte (k : MaskKey) (i : Nat) : UInt8 :=
  match i % 4 with
  | 0 => k.b0
  | 1 => k.b1
  | 2 => k.b2
  | _ => k.b3

def toBytes (k : MaskKey) : Bytes := [k.b0, k.b1, k.b2, k.b3]

/-- The first four bytes; zero where there are fewer. -/
def ofBytes (bs : Bytes) : MaskKey := ⟨bs.getD 0 0, bs.getD 1 0, bs.getD 2 0, bs.getD 3 0⟩

def apply (k : MaskKey) (bs : Bytes) : Bytes := bs.mapIdx fun i b => b ^^^ k.byte i

def applyFrom (k : MaskKey) (start : Nat) (bs : Bytes) : Bytes :=
  bs.take start ++ k.apply (bs.drop start)

theorem ofBytes_toBytes (k : MaskKey) : ofBytes k.toBytes = k := rfl

@[simp] theorem length_apply (k : MaskKey) (bs : Bytes) : (k.apply bs).length = bs.length := by
  simp [apply]

theorem apply_apply (k : MaskKey) (bs : Bytes) : k.apply (k.apply bs) = bs := by
  apply List.ext_getElem
  · simp
  · intro i _ _
    simp only [apply, List.getElem_mapIdx, UInt8.xor_assoc, UInt8.xor_self, UInt8.xor_zero]

end MaskKey

inductive ProtocolError
  | reservedBits (bits : UInt8)
  | invalidLength (length : Nat)
  | frameTooLarge (length : Nat)
  | invalidControl (opcode : UInt8) (fin : Bool) (length : Nat)
  | unexpectedContinuation
  | interleaved
  | messageTooLarge (length limit : Nat)
  | truncated
  | snapshotSize (actual expected : Nat)
deriving DecidableEq, Repr

def ProtocolError.message : ProtocolError → String
  | .reservedBits bits => s!"reserved bits set in frame header: {Text.hex bits.toNat}"
  | .invalidLength n => s!"invalid 64-bit payload length {Text.hex n}"
  | .frameTooLarge n => s!"frame payload of {n} bytes is too large"
  | .invalidControl opcode fin n =>
    s!"invalid control frame (opcode {Text.hex opcode.toNat}, fin {fin}, {n} bytes)"
  | .unexpectedContinuation => "continuation frame without a message in progress"
  | .interleaved => "data frame interleaved with an unfinished fragmented message"
  | .messageTooLarge n limit => s!"message of {n} bytes exceeds the {limit} byte limit"
  | .truncated => "buffer truncated"
  | .snapshotSize actual expected =>
    s!"snapshot payload has {actual} pixels, expected {expected}"

end SharedCanvas
