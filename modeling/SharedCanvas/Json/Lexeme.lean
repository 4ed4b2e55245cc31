import SharedCanvas.Bytes

namespace SharedCanvas.Json

/-- How a text fails. The first fault from the left is the one that counts. -/
inductive Fault
  /-- The text is no JSON. -/
  | malformed
  /-- The text may be JSON, but not of the shape that was asked for. -/
  | mismatch
  /-- The text ends inside a value. -/
  | cutShort
deriving DecidableEq, Repr

abbrev Scan (α : Type) := Except Fault (α × Bytes)

def quoteMark : UInt8 := 0x22
def backslash : UInt8 := 0x5C
def comma : UInt8 := 0x2C
def colon : UInt8 := 0x3A
def minus : UInt8 := 0x2D
def openList : UInt8 := 0x5B
def closeList : UInt8 := 0x5D
def openObject : UInt8 := 0x7B
def closeObject : UInt8 := 0x7D
def letterU : UInt8 := 0x75

def isBlank (b : UInt8) : Bool := b == 0x20 || b == 0x09 || b == 0x0A || b == 0x0D

def skipBlanks (s : Bytes) : Bytes := s.dropWhile isBlank

def isDigit (b : UInt8) : Bool := 0x30 ≤ b && b ≤ 0x39

def digitValue (b : UInt8) : Nat := b.toNat - 0x30

def scanWord : Bytes → Bytes → Except Fault Bytes
  | [], s => .ok s
  | _ :: _, [] => .error .cutShort
  | w :: ws, c :: s => if w == c then scanWord ws s else .error .malformed

def hexValue? (b : UInt8) : Option Nat :=
  if isDigit b then some (digitValue b)
  else if 0x41 ≤ b && b ≤ 0x46 then some (b.toNat - 0x41 + 10)
  else if 0x61 ≤ b && b ≤ 0x66 then some (b.toNat - 0x61 + 10)
  else none

def hexUnit? (a b c d : UInt8) : Option Nat := do
  let a ← hexValue? a
  let b ← hexValue? b
  let c ← hexValue? c
  let d ← hexValue? d
  return ((a * 16 + b) * 16 + c) * 16 + d

def readUnit : Bytes → Scan Nat
  | a :: b :: c :: d :: s =>
    match hexUnit? a b c d with
    | some n => .ok (n, s)
    | none => .error .malformed
  | _ => .error .cutShort

def isLeading (n : Nat) : Bool := 0xD800 ≤ n && n ≤ 0xDBFF
def isTrailing (n : Nat) : Bool := 0xDC00 ≤ n && n ≤ 0xDFFF

def joinSurrogates (hi lo : Nat) : Char :=
  Char.ofNat ((hi - 0xD800) * 1024 + (lo - 0xDC00) + 0x10000)

/-- The rest of an escape of a character by number; surrogates must come in pairs. -/
def readUnicode (s : Bytes) : Scan Bytes :=
  match readUnit s with
  | .error e => .error e
  | .ok (n, s) =>
    if isTrailing n then .error .malformed
    else if isLeading n then
      match s with
      | [] => .error .cutShort
      | c :: s =>
        if c != backslash then .error .malformed
        else match s with
          | [] => .error .cutShort
          | c :: s =>
            if c != letterU then .error .malformed
            else match readUnit s with
              | .error e => .error e
              | .ok (m, s) =>
                if isTrailing m then .ok (String.utf8EncodeChar (joinSurrogates n m), s)
                else .error .malformed
    else .ok (String.utf8EncodeChar (Char.ofNat n), s)

def simpleEscape? (c : UInt8) : Option UInt8 :=
  if c == quoteMark || c == backslash || c == 0x2F then some c
  else if c == 0x62 then some 0x08
  else if c == 0x66 then some 0x0C
  else if c == 0x6E then some 0x0A
  else if c == 0x72 then some 0x0D
  else if c == 0x74 then some 0x09
  else none

def readEscape : Bytes → Scan Bytes
  | [] => .error .cutShort
  | c :: s =>
    match simpleEscape? c with
    | some b => .ok ([b], s)
    | none => if c == letterU then readUnicode s else .error .malformed

theorem length_readUnit {s r : Bytes} {n : Nat} (h : readUnit s = .ok (n, r)) :
    r.length + 4 = s.length := by
  unfold readUnit at h
  split at h
  · split at h
    · simp only [Except.ok.injEq, Prod.mk.injEq] at h
      simp [← h.2]
    · simp at h
  · simp at h

theorem length_readUnicode {s r b : Bytes} (h : readUnicode s = .ok (b, r)) :
    r.length < s.length := by
  unfold readUnicode at h
  split at h
  · simp at h
  · rename_i n s' hn
    have := length_readUnit hn
    split at h
    · simp at h
    · split at h
      · split at h
        · simp at h
        · split at h
          · simp at h
          · split at h
            · simp at h
            · split at h
              · simp at h
              · split at h
                · simp at h
                · rename_i m s'' hm
                  have := length_readUnit hm
                  split at h
                  · simp only [Except.ok.injEq, Prod.mk.injEq] at h
                    simp only [List.length_cons, ← h.2] at *
                    omega
                  · simp at h
      · simp only [Except.ok.injEq, Prod.mk.injEq] at h
        rw [← h.2]; omega

theorem length_readEscape {s r b : Bytes} (h : readEscape s = .ok (b, r)) :
    r.length < s.length := by
  unfold readEscape at h
  split at h
  · simp at h
  · split at h
    · simp only [Except.ok.injEq, Prod.mk.injEq] at h
      simp [← h.2]
    · split at h
      · have := length_readUnicode h
        simp only [List.length_cons]
        omega
      · simp at h

/-- What a string held must be UTF-8. -/
def readText (b s : Bytes) : Scan Bytes :=
  if (Bytes.toString? b).isSome then .ok (b, s) else .error .malformed

/-- The bytes of a string after its opening mark, without the escapes. `seen` holds what has been
read, backwards. -/
def readString (seen : Bytes) (s : Bytes) : Scan Bytes :=
  match s with
  | [] => .error .cutShort
  | c :: s =>
    if c == quoteMark then readText seen.reverse s
    else if c == backslash then
      match h : readEscape s with
      | .error e => .error e
      | .ok (b, r) =>
        have := length_readEscape h
        readString (b.reverse ++ seen) r
    else if c < 0x20 then .error .malformed
    else readString (c :: seen) s
termination_by s.length

theorem length_readText {b b' s r : Bytes} (h : readText b s = .ok (b', r)) :
    r.length = s.length := by
  unfold readText at h
  split at h <;> simp_all

theorem length_readString {seen s r b : Bytes} (h : readString seen s = .ok (b, r)) :
    r.length < s.length := by
  fun_induction readString seen s with
  | case1 => simp at h
  | case2 => simp [length_readText h]
  | case3 => simp at h
  | case4 seen c s _ _ b' r' _ hr ih => have := ih h; simp only [List.length_cons]; omega
  | case5 => simp at h
  | case6 seen c s _ _ _ ih => have := ih h; simp only [List.length_cons]; omega

theorem length_skipBlanks (s : Bytes) : (skipBlanks s).length ≤ s.length :=
  (List.dropWhile_sublist _).length_le

end SharedCanvas.Json
