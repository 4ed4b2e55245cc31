import SharedCanvas.Json.Lexeme

namespace SharedCanvas.Json

/-- A number as it is written. The digits are values, not bytes. -/
structure Numeral where
  negative : Bool
  whole : List Nat
  /-- Empty if there is no point. -/
  fraction : List Nat
  /-- Whether it is negative, and its digits. -/
  exponent : Option (Bool × List Nat)
deriving DecidableEq, Repr

def spanDigits (s : Bytes) : List Nat × Bytes :=
  ((s.takeWhile isDigit).map digitValue, s.dropWhile isDigit)

def readWhole : Bytes → Scan (List Nat)
  | [] => .error .cutShort
  | c :: s =>
    if c == 0x30 then
      match s with
      | [] => .ok ([0], [])
      | d :: s => if isDigit d then .error .malformed else .ok ([0], d :: s)
    else if isDigit c then .ok (spanDigits (c :: s))
    else .error .malformed

def readDigits (s : Bytes) : Scan (List Nat) :=
  match spanDigits s with
  | ([], []) => .error .cutShort
  | ([], _ :: _) => .error .malformed
  | (ds, r) => .ok (ds, r)

def readFraction : Bytes → Scan (List Nat)
  | [] => .ok ([], [])
  | c :: s => if c == 0x2E then readDigits s else .ok ([], c :: s)

def readSign : Bytes → Bool × Bytes
  | [] => (false, [])
  | c :: s => if c == 0x2B then (false, s) else if c == minus then (true, s) else (false, c :: s)

def readExponent : Bytes → Scan (Option (Bool × List Nat))
  | [] => .ok (none, [])
  | c :: s =>
    if c == 0x65 || c == 0x45 then
      match readDigits (readSign s).2 with
      | .error e => .error e
      | .ok (ds, r) => .ok (some ((readSign s).1, ds), r)
    else .ok (none, c :: s)

def readUnsigned (negative : Bool) (s : Bytes) : Scan Numeral :=
  match readWhole s with
  | .error e => .error e
  | .ok (whole, s) =>
    match readFraction s with
    | .error e => .error e
    | .ok (fraction, s) =>
      match readExponent s with
      | .error e => .error e
      | .ok (exponent, s) => .ok (⟨negative, whole, fraction, exponent⟩, s)

def readNumeral : Bytes → Scan Numeral
  | [] => .error .cutShort
  | c :: s => if c == minus then readUnsigned true s else readUnsigned false (c :: s)

def digitsValue (ds : List Nat) : Nat := ds.foldl (fun n d => n * 10 + d) 0

/-- Appends digits for as long as the number fits 64 bits, and counts those it took. -/
def appendDigits : Nat → List Nat → Nat × Nat
  | n, [] => (n, 0)
  | n, d :: ds =>
    if n * 10 + d ≤ maxWord64 then
      let (m, k) := appendDigits (n * 10 + d) ds
      (m, k + 1)
    else (n, 0)

/-- `n` to 53 significant bits; a tie goes to the even neighbour. -/
def roundSignificand (n : Nat) : Nat :=
  if n < Nat.pow 2 53 then n
  else
    let unit := Nat.pow 2 (n.log2 - 52)
    let q := n / unit
    let r := n % unit
    if unit < 2 * r || (unit == 2 * r && q % 2 == 1) then (q + 1) * unit else q * unit

/-- `n` times ten to the `e` has no finite binary64 neighbour. -/
def beyondDouble (n : Nat) (e : Int) : Bool :=
  n != 0 && (308 < e ||
    (0 ≤ e && Nat.pow 2 1024 - Nat.pow 2 970 ≤
      roundSignificand n * roundSignificand (Nat.pow 10 e.toNat)))

namespace Numeral

/-- As many leading digits as fit 64 bits, and the power of ten they are to be scaled by. -/
def scaled (n : Numeral) : Nat × Int :=
  let (w, taken) := appendDigits 0 n.whole
  let (v, added) := appendDigits w n.fraction
  let e : Int :=
    match n.exponent with
    | none => 0
    | some (false, ds) => digitsValue ds
    | some (true, ds) => -digitsValue ds
  (v, (n.whole.length - taken : Nat) - added + e)

def isPlain (n : Numeral) : Bool := n.fraction.isEmpty && n.exponent.isNone

def maxWordDigits : Nat := 20

def isWord (n : Numeral) : Bool :=
  n.isPlain && n.whole.length ≤ maxWordDigits && digitsValue n.whole ≤ maxWord64

/-- The integer of 64 bits that is written without a sign, a point or an exponent. Any other
number is none, and one beyond the doubles is not even a number. -/
def integer? (n : Numeral) : Except Fault (Option Nat) :=
  if n.isWord then
    .ok (if n.negative then none else some (digitsValue n.whole))
  else if beyondDouble n.scaled.1 n.scaled.2 then .error .malformed
  else .ok none

end Numeral

theorem length_spanDigits (s : Bytes) : (spanDigits s).2.length ≤ s.length :=
  (List.dropWhile_sublist _).length_le

theorem length_readDigits {s r : Bytes} {ds : List Nat} (h : readDigits s = .ok (ds, r)) :
    r.length ≤ s.length := by
  have := length_spanDigits s
  unfold readDigits at h
  split at h
  · simp at h
  · simp at h
  · rename_i hs; rw [hs] at this; simp_all

theorem length_readWhole {s r : Bytes} {ds : List Nat} (h : readWhole s = .ok (ds, r)) :
    r.length < s.length := by
  unfold readWhole at h
  split at h
  · simp at h
  · rename_i c s
    split at h
    · split at h
      · simp only [Except.ok.injEq, Prod.mk.injEq] at h
        simp [← h.2]
      · split at h
        · simp at h
        · simp only [Except.ok.injEq, Prod.mk.injEq] at h
          simp [← h.2]
    · split at h
      · rename_i hd
        simp only [spanDigits, List.dropWhile_cons, hd, if_true, Except.ok.injEq,
          Prod.mk.injEq] at h
        rw [← h.2, List.length_cons]
        exact Nat.lt_succ_of_le (List.dropWhile_sublist _).length_le
      · simp at h

theorem length_readFraction {s r : Bytes} {ds : List Nat} (h : readFraction s = .ok (ds, r)) :
    r.length ≤ s.length := by
  unfold readFraction at h
  split at h
  · simp_all
  · split at h
    · have := length_readDigits h; simp only [List.length_cons]; omega
    · simp_all

theorem length_readSign (s : Bytes) : (readSign s).2.length ≤ s.length := by
  unfold readSign
  split
  · simp
  · split
    · simp
    · split <;> simp

theorem length_readExponent {s r : Bytes} {e : Option (Bool × List Nat)}
    (h : readExponent s = .ok (e, r)) : r.length ≤ s.length := by
  unfold readExponent at h
  split at h
  · simp_all
  · rename_i c s
    split at h
    · split at h
      · simp at h
      · rename_i hr
        have := length_readDigits hr
        have := length_readSign s
        simp only [Except.ok.injEq, Prod.mk.injEq] at h
        rw [← h.2, List.length_cons]
        omega
    · simp_all

theorem length_readUnsigned {s r : Bytes} {b : Bool} {n : Numeral}
    (h : readUnsigned b s = .ok (n, r)) : r.length < s.length := by
  unfold readUnsigned at h
  split at h
  · simp at h
  · rename_i hw
    have := length_readWhole hw
    split at h
    · simp at h
    · rename_i hf
      have := length_readFraction hf
      split at h
      · simp at h
      · rename_i he
        have := length_readExponent he
        simp only [Except.ok.injEq, Prod.mk.injEq] at h
        rw [← h.2]
        omega

theorem length_readNumeral {s r : Bytes} {n : Numeral} (h : readNumeral s = .ok (n, r)) :
    r.length < s.length := by
  unfold readNumeral at h
  split at h
  · simp at h
  · split at h
    · have := length_readUnsigned h; simp only [List.length_cons]; omega
    · exact length_readUnsigned h

end SharedCanvas.Json
