import SharedCanvas.Bytes

namespace SharedCanvas

namespace Bytes

def ofDecimal (n : Nat) : Bytes := (Nat.toDigits 10 n).map fun c => UInt8.ofNat c.toNat

end Bytes

namespace Text

def hex (n : Nat) : String := "0x" ++ String.ofList (Nat.toDigits 16 n)

/-- Why a text is no number of the kind that was asked for. -/
inductive NumberFault
  | empty
  | invalidDigit
  | tooLarge
deriving DecidableEq, Repr

def NumberFault.message : NumberFault → String
  | .empty => "cannot parse integer from empty string"
  | .invalidDigit => "invalid digit found in string"
  | .tooLarge => "number too large to fit in target type"

/-- Digits are taken one by one, so the first fault from the left is the one reported. -/
def readDigits (max : Nat) : Nat → List Char → Except NumberFault Nat
  | n, [] => .ok n
  | n, c :: cs =>
    if c.isDigit then
      let next := n * 10 + (c.toNat - '0'.toNat)
      if next ≤ max then readDigits max next cs else .error .tooLarge
    else .error .invalidDigit

/-- An unsigned number of at most `max`; one plus sign may stand before the digits. -/
def readNumber (max : Nat) (s : String) : Except NumberFault Nat :=
  match s.toList with
  | [] => .error .empty
  | ['+'] => .error .invalidDigit
  | '+' :: cs => readDigits max 0 cs
  | cs => readDigits max 0 cs

theorem readDigits_le {max n m : Nat} {cs : List Char} (h : n ≤ max)
    (hr : readDigits max n cs = .ok m) : m ≤ max := by
  induction cs generalizing n with
  | nil => simp only [readDigits, Except.ok.injEq] at hr; omega
  | cons c cs ih =>
    unfold readDigits at hr
    split at hr
    · dsimp only at hr
      split at hr
      · rename_i hle; exact ih hle hr
      · simp at hr
    · simp at hr

theorem readNumber_le {max n : Nat} {s : String} (h : readNumber max s = .ok n) : n ≤ max := by
  unfold readNumber at h
  split at h
  · simp at h
  · simp at h
  · exact readDigits_le (Nat.zero_le _) h
  · exact readDigits_le (Nat.zero_le _) h

end Text
end SharedCanvas
