import SharedCanvas.Proofs.Frame.Grammar
import Mathlib.Order.Bounds.Defs

namespace SharedCanvas

theorem Bytes.toNatBE_lt (bs : Bytes) : toNatBE bs < 256 ^ bs.length := by
  induction bs with
  | nil => decide
  | cons b bs ih =>
    have hb : toNatBE [b] = b.toNat := Nat.zero_add _
    have hlt : (b.toNat + 1) * 256 ^ bs.length ≤ 256 * 256 ^ bs.length :=
      Nat.mul_le_mul_right _ b.toNat_lt
    rw [← List.singleton_append, toNatBE_append, hb, List.singleton_append, List.length_cons,
      Nat.pow_succ, Nat.mul_comm _ 256]
    rw [Nat.succ_mul] at hlt
    omega

theorem MaskKey.applyFrom_append (k : MaskKey) (bs more : Bytes) :
    k.applyFrom bs.length (bs ++ more) = bs ++ k.apply more := by
  rw [applyFrom, List.take_left, List.drop_left]

namespace Frame

theorem pushLength_eq (flag : UInt8) (n : Nat) (out : Bytes) :
    pushLength flag n out =
      out ++ ((flag ||| baseFor n) :: Bytes.ofNatBE (extensionFor n) n) := by
  unfold pushLength baseFor extensionFor
  by_cases h1 : n ≤ 125
  · simp only [if_pos h1]
    rfl
  by_cases h2 : n ≤ 65535
  · simp only [if_neg h1, if_pos h2, List.append_assoc, List.singleton_append]
  · simp only [if_neg h1, if_neg h2, List.append_assoc, List.singleton_append]

theorem append_eq (opcode : Opcode) (payload out : Bytes) :
    append opcode payload out = out ++ encode opcode payload := by
  rw [append, pushLength_eq, encode, encodeWith, List.append_assoc, List.append_assoc]
  rfl

theorem appendFragment_eq (opcode : Opcode) (fin : Bool) (payload : Bytes) (key : MaskKey)
    (out : Bytes) : appendFragment opcode fin payload key out =
      out ++ encodeFragment opcode fin payload key := by
  rw [appendFragment, MaskKey.applyFrom_append, pushLength_eq, encodeFragment, encodeWith]
  simp only [List.append_assoc, List.cons_append, List.nil_append]
  rfl

namespace Header

def shortest (n : Nat) (key? : Option MaskKey) : Header :=
  ⟨true, 0, if n ≤ 125 then n else if n ≤ 65535 then 126 else 127, Bytes.ofNatBE (extensionFor n) n,
    key?⟩

theorem announces_shortest {n : Nat} (h : n < 2 ^ 64) (key? : Option MaskKey) :
    (shortest n key?).Announces n := by
  refine ⟨Nat.zero_lt_succ 15, ?_⟩
  unfold shortest extensionFor
  by_cases h1 : n ≤ 125
  · simp only [if_pos h1]
    exact .short h1
  by_cases h2 : n ≤ 65535
  · have hn : Bytes.toNatBE (Bytes.ofNatBE 2 n) = n := by
      rw [Bytes.toNatBE_ofNatBE, Nat.mod_eq_of_lt (by omega)]
    have hf := LengthField.word (Bytes.length_ofNatBE 2 n)
    rw [hn] at hf
    simpa only [if_neg h1, if_pos h2] using hf
  · have hn : Bytes.toNatBE (Bytes.ofNatBE 8 n) = n := by
      rw [Bytes.toNatBE_ofNatBE, Nat.mod_eq_of_lt (by omega)]
    have hf := LengthField.long (Bytes.length_ofNatBE 8 n)
    rw [hn] at hf
    simpa only [if_neg h1, if_neg h2] using hf

end Header

theorem LengthField.extensionFor_le {base n : Nat} {field : Bytes} (h : LengthField base field n) :
    extensionFor n ≤ field.length := by
  unfold extensionFor
  cases h with
  | short h => rw [if_pos h, List.length_nil]
  | word h =>
    have hn := Bytes.toNatBE_lt field
    rw [h] at hn ⊢
    split_ifs
    · omega
    · omega
    · omega
  | long h =>
    rw [h]
    split_ifs <;> decide

theorem headerLength_le {h : Header} {n : Nat} (ha : h.Announces n) :
    headerLength n h.key?.isSome ≤ h.bytes.length := by
  have hx := ha.field.extensionFor_le
  rw [Header.length_bytes, headerLength]
  omega

/-- `headerLength` is the least that a header of the grammar takes. -/
theorem isLeast_headerLength {n : Nat} (hn : n < 2 ^ 64) (masked : Bool) :
    IsLeast {k | ∃ h : Header, h.Announces n ∧ h.key?.isSome = masked ∧ h.bytes.length = k}
      (headerLength n masked) := by
  constructor
  · refine ⟨Header.shortest n (if masked then some ⟨0, 0, 0, 0⟩ else none),
      Header.announces_shortest hn _, ?_, ?_⟩
    · cases masked <;> rfl
    · rw [Header.length_bytes]
      cases masked <;> simp [Header.shortest, headerLength]
  · rintro k ⟨h, ha, hm, hk⟩
    rw [← hk, ← hm]
    exact headerLength_le ha

/-- `write` puts the bytes behind what is there, whatever that is, and the reader makes the frame
of them, whatever follows. -/
structure Appends (write : Bytes → Bytes) (bs : Bytes) (f : Frame) : Prop where
  appended (out : Bytes) : write out = out ++ bs
  length : bs.length = headerLength f.payload.length f.masked + f.payload.length
  decoded (rest : Bytes) : decode (bs ++ rest) = .ok (.complete f bs.length)

/-- What holds of the three writers for a payload. -/
structure Written (opcode : Opcode) (payload : Bytes) (key : MaskKey) : Prop where
  plain : Appends (append opcode payload) (encode opcode payload)
    ⟨true, opcode.code, false, payload⟩
  masked : Appends (appendMasked opcode payload key) (encodeMasked opcode payload key)
    ⟨true, opcode.code, true, payload⟩
  fragment (fin : Bool) (whole : opcode.isControl = true → fin = true) :
    Appends (appendFragment opcode fin payload key) (encodeFragment opcode fin payload key)
      ⟨fin, opcode.code, true, payload⟩
  least (masked : Bool) :
    IsLeast {k | ∃ h : Header,
        h.Announces payload.length ∧ h.key?.isSome = masked ∧ h.bytes.length = k}
      (headerLength payload.length masked)
  header (masked : Bool) : headerLength payload.length masked =
    (if payload.length ≤ 125 then 2 else if payload.length ≤ 65535 then 4 else 10) +
      if masked then 4 else 0

/-- What is written behind a prefix is read back from there, under the least header. -/
theorem written_of_length_lt {opcode : Opcode} {payload : Bytes} (hl : payload.length < 2 ^ 63)
    (hc : opcode.isControl = true → payload.length ≤ 125) (key : MaskKey) :
    Written opcode payload key := by
  have hf : ∀ fin, (opcode.isControl = true → fin = true) →
      Appends (appendFragment opcode fin payload key) (encodeFragment opcode fin payload key)
        ⟨fin, opcode.code, true, payload⟩ := by
    intro fin whole
    exact ⟨appendFragment_eq opcode fin payload key,
      length_encodeWith (some key) fin opcode payload,
      decode_encodeWith (some key) hl fun h => ⟨whole h, hc h⟩⟩
  refine ⟨?_, hf true fun _ => rfl, hf, isLeast_headerLength (by omega), ?_⟩
  · exact ⟨append_eq opcode payload, length_encodeWith none true opcode payload,
      decode_encodeWith none hl fun h => ⟨rfl, hc h⟩⟩
  · intro masked
    rw [headerLength, extensionFor]
    split_ifs <;> rfl

theorem written_of_length_lt_ping :
    [5, 6, 7].length < 2 ^ 63 ∧ (Opcode.ping.isControl = true → [5, 6, 7].length ≤ 125) ∧
      Written .ping [5, 6, 7] ⟨1, 2, 3, 4⟩ :=
  ⟨by decide, by decide, written_of_length_lt (by decide) (by decide) ⟨1, 2, 3, 4⟩⟩

end Frame
end SharedCanvas
