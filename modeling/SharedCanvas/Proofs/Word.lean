import SharedCanvas.Bytes

namespace SharedCanvas

inductive Slip
  | overflow
  | outside
deriving DecidableEq, Repr

namespace Word

def add (a b : Nat) : Except Slip Nat := if a + b ≤ maxWord64 then .ok (a + b) else .error .overflow

def mul (a b : Nat) : Except Slip Nat := if a * b ≤ maxWord64 then .ok (a * b) else .error .overflow

def sub (a b : Nat) : Except Slip Nat := if b ≤ a then .ok (a - b) else .error .overflow

theorem add_of_le {a b : Nat} (h : a + b ≤ maxWord64) : add a b = .ok (a + b) := if_pos h

theorem mul_of_le {a b : Nat} (h : a * b ≤ maxWord64) : mul a b = .ok (a * b) := if_pos h

theorem sub_of_le {a b : Nat} (h : b ≤ a) : sub a b = .ok (a - b) := if_pos h

end Word

namespace Bytes

def byteAt (bs : Bytes) (i : Nat) : Except Slip UInt8 := bs[i]?.elim (.error .outside) .ok

def slice (bs : Bytes) (lo hi : Nat) : Except Slip Bytes :=
  if lo ≤ hi ∧ hi ≤ bs.length then .ok ((bs.take hi).drop lo) else .error .outside

theorem slice_of_le {bs : Bytes} {lo hi : Nat} (h : lo ≤ hi) (hb : hi ≤ bs.length) :
    bs.slice lo hi = .ok ((bs.take hi).drop lo) := if_pos ⟨h, hb⟩

end Bytes
end SharedCanvas
