import SharedCanvas.Frame.Basic

namespace SharedCanvas.Frame

def extensionFor (n : Nat) : Nat := if n ≤ 125 then 0 else if n ≤ 65535 then 2 else 8

def headerLength (n : Nat) (masked : Bool) : Nat := 2 + extensionFor n + if masked then 4 else 0

def baseFor (n : Nat) : UInt8 :=
  if n ≤ 125 then UInt8.ofNat n else if n ≤ 65535 then 126 else 127

/-- A frame on the wire; a client's frame has a key. -/
def encodeWith (key? : Option MaskKey) (fin : Bool) (opcode : Opcode) (payload : Bytes) : Bytes :=
  let n := payload.length
  let first := (if fin then 0x80 else 0) ||| opcode.code
  let flag : UInt8 := if key?.isSome then 0x80 else 0
  first :: (flag ||| baseFor n) :: Bytes.ofNatBE (extensionFor n) n ++
    match key? with
    | none => payload
    | some key => key.toBytes ++ key.apply payload

def encode (opcode : Opcode) (payload : Bytes) : Bytes := encodeWith none true opcode payload

def encodeFragment (opcode : Opcode) (fin : Bool) (payload : Bytes) (key : MaskKey) : Bytes :=
  encodeWith (some key) fin opcode payload

def encodeMasked (opcode : Opcode) (payload : Bytes) (key : MaskKey) : Bytes :=
  encodeFragment opcode true payload key

theorem length_encodeWith (key? : Option MaskKey) (fin : Bool) (opcode : Opcode)
    (payload : Bytes) : (encodeWith key? fin opcode payload).length =
      headerLength payload.length key?.isSome + payload.length := by
  cases key? <;> simp [encodeWith, headerLength, MaskKey.toBytes] <;> omega

/-- Writes the second byte and the length field behind `out`. -/
def pushLength (flag : UInt8) (n : Nat) (out : Bytes) : Bytes :=
  if n ≤ 125 then out ++ [flag ||| UInt8.ofNat n]
  else if n ≤ 65535 then out ++ [flag ||| 126] ++ Bytes.ofNatBE 2 n
  else out ++ [flag ||| 127] ++ Bytes.ofNatBE 8 n

def append (opcode : Opcode) (payload out : Bytes) : Bytes :=
  pushLength 0 payload.length (out ++ [0x80 ||| opcode.code]) ++ payload

/-- Writes a fragment of a client's message behind `out`, and masks it where it then stands. -/
def appendFragment (opcode : Opcode) (fin : Bool) (payload : Bytes) (key : MaskKey) (out : Bytes) :
    Bytes :=
  let first := (if fin then 0x80 else 0) ||| opcode.code
  let header := pushLength 0x80 payload.length (out ++ [first]) ++ key.toBytes
  key.applyFrom header.length (header ++ payload)

def appendMasked (opcode : Opcode) (payload : Bytes) (key : MaskKey) (out : Bytes) : Bytes :=
  appendFragment opcode true payload key out

def closePayload (code : UInt16) : Bytes := Bytes.ofNatBE 2 code.toNat

/-- The status that answers a peer's close. -/
def closeNormal : UInt16 := 1000

end SharedCanvas.Frame
