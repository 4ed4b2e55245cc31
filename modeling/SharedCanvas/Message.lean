import SharedCanvas.Frame.Basic

namespace SharedCanvas

inductive Message
  | text (payload : Bytes)
  | binary (payload : Bytes)
  /-- The peer wants to leave; the status code if it gave one. -/
  | close (code : Option UInt16)
  | ping (payload : Bytes)
deriving DecidableEq, Repr

inductive DataKind
  | text
  | binary
deriving DecidableEq, Repr

def DataKind.message : DataKind → Bytes → Message
  | text => .text
  | binary => .binary

/-- A message whose last fragment has not come yet. -/
structure Unfinished where
  kind : DataKind
  payload : Bytes
deriving DecidableEq, Repr

/-- Puts the fragments of one peer's messages together. -/
structure Assembler where
  limit : Nat
  unfinished : Option Unfinished
deriving DecidableEq, Repr

namespace Assembler

def new (limit : Nat) : Assembler := ⟨limit, none⟩

def isPartial (a : Assembler) : Bool := a.unfinished.isSome

def start (a : Assembler) (kind : DataKind) (fin : Bool) (payload : Bytes) :
    Except ProtocolError (Assembler × Option Message) :=
  if a.isPartial then .error .interleaved
  else if a.limit < payload.length then .error (.messageTooLarge payload.length a.limit)
  else if fin then .ok (a, some (kind.message payload))
  else .ok ({ a with unfinished := some ⟨kind, payload⟩ }, none)

def resume (a : Assembler) (fin : Bool) (payload : Bytes) :
    Except ProtocolError (Assembler × Option Message) :=
  match a.unfinished with
  | none => .error .unexpectedContinuation
  | some u =>
    let whole := u.payload ++ payload
    if a.limit < whole.length then .error (.messageTooLarge whole.length a.limit)
    else if fin then .ok ({ a with unfinished := none }, some (u.kind.message whole))
    else .ok ({ a with unfinished := some ⟨u.kind, whole⟩ }, none)

def closeCode : Bytes → Option UInt16
  | hi :: lo :: _ => some (Bytes.toWordLE lo hi)
  | _ => none

/-- Takes the next frame. Control frames pass between the fragments, frames without a meaning are
skipped, and a frame that is refused leaves everything as it was. -/
def push (a : Assembler) (f : Frame) : Except ProtocolError (Assembler × Option Message) :=
  match f.kind? with
  | none => .ok (a, none)
  | some .text => a.start .text f.fin f.payload
  | some .binary => a.start .binary f.fin f.payload
  | some .continuation => a.resume f.fin f.payload
  | some .close => .ok (a, some (.close (closeCode f.payload)))
  | some .ping => .ok (a, some (.ping f.payload))
  | some .pong => .ok (a, none)

end Assembler
end SharedCanvas
