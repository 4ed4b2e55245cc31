namespace SharedCanvas

abbrev Bytes := List UInt8

def maxWord16 : Nat := Nat.pow 2 16 - 1

def maxWord64 : Nat := Nat.pow 2 64 - 1

/-- The items in blocks of `n + 1`, of which the last may be shorter. -/
def blocks {α : Type} (n : Nat) (xs : List α) : List (List α) :=
  match xs with
  | [] => []
  | x :: rest => (x :: rest.take n) :: blocks n (rest.drop n)
termination_by xs.length
decreasing_by simp only [List.length_drop, List.length_cons]; omega

namespace Bytes

def ofString (s : String) : Bytes := s.toByteArray.data.toList

def toString? (bs : Bytes) : Option String := String.fromUTF8? ⟨bs.toArray⟩

def ofNatBE : Nat → Nat → Bytes
  | 0, _ => []
  | k + 1, n => ofNatBE k (n / 256) ++ [UInt8.ofNat n]

def toNatBE (bs : Bytes) : Nat := bs.foldl (fun n b => n * 256 + b.toNat) 0

def ofWordLE (w : UInt16) : Bytes := [w.toUInt8, (w >>> 8).toUInt8]

def toWordLE (lo hi : UInt8) : UInt16 := UInt16.ofNat (lo.toNat + 256 * hi.toNat)

/-- How many bytes `bs` is short of `n`. Looks at no more than `n` of them. -/
def missing : Nat → Bytes → Nat
  | 0, _ => 0
  | n + 1, [] => n + 1
  | n + 1, _ :: bs => missing n bs

@[simp] theorem length_ofNatBE (k n : Nat) : (ofNatBE k n).length = k := by
  induction k generalizing n with
  | zero => rfl
  | succ k ih => simp [ofNatBE, ih]

@[simp] theorem missing_eq (n : Nat) (bs : Bytes) : missing n bs = n - bs.length := by
  induction n generalizing bs with
  | zero => simp [missing]
  | succ n ih => cases bs <;> simp [missing, ih]

@[simp] theorem toWordLE_ofWordLE (w : UInt16) : toWordLE w.toUInt8 (w >>> 8).toUInt8 = w := by
  have h := w.toNat_lt
  apply UInt16.toNat.inj
  simp only [toWordLE, UInt16.toNat_ofNat', UInt16.toNat_toUInt8, UInt16.toNat_shiftRight,
    UInt16.reduceToNat, Nat.shiftRight_eq_div_pow, Nat.reduceMod, Nat.reducePow]
  omega

end Bytes
end SharedCanvas
