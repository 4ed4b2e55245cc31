import SharedCanvas.Frame.Encode
import SharedCanvas.Frame.Pump
import Mathlib.Algebra.Ring.Nat
import Mathlib.Tactic.SplitIfs

namespace SharedCanvas

namespace Bytes

theorem toNatBE_append (a b : Bytes) :
    toNatBE (a ++ b) = toNatBE a * 256 ^ b.length + toNatBE b := by
  have h : ∀ (bs : Bytes) (n : Nat), bs.foldl (fun n b => n * 256 + b.toNat) n =
      n * 256 ^ bs.length + toNatBE bs := by
    intro bs
    induction bs with
    | nil => intro n; simp [toNatBE]
    | cons b bs ih =>
      intro n
      rw [toNatBE, List.foldl_cons, List.foldl_cons, ih, ih]
      simp only [List.length_cons, Nat.pow_succ, Nat.zero_mul, Nat.zero_add, Nat.add_mul]
      rw [Nat.mul_assoc n 256, Nat.mul_comm 256, Nat.add_assoc]
  rw [toNatBE, List.foldl_append, h, ← toNatBE]

theorem toNatBE_ofNatBE (k n : Nat) : toNatBE (ofNatBE k n) = n % 256 ^ k := by
  induction k generalizing n with
  | zero => simp [ofNatBE, toNatBE, Nat.mod_one]
  | succ k ih =>
    have hb : toNatBE [UInt8.ofNat n] = n % 256 := by simp [toNatBE]
    rw [ofNatBE, toNatBE_append, ih, hb, List.length_singleton, Nat.pow_one,
      Nat.pow_succ, Nat.mul_comm (256 ^ k), Nat.mod_mul]
    omega

end Bytes

theorem MaskKey.ofBytes_append {bs : Bytes} (h : 4 ≤ bs.length) (more : Bytes) :
    MaskKey.ofBytes (bs ++ more) = MaskKey.ofBytes bs := by
  match bs, h with
  | _ :: _ :: _ :: _ :: _, _ => rfl

namespace Frame

namespace Head

def extra (h : Head) : Nat := h.extension + h.keyLength

def frame (h : Head) (rest : Bytes) : Frame :=
  let payload := (rest.drop h.extra).take (h.payloadLength rest)
  ⟨h.fin, h.opcode, h.masked,
    if h.masked then (MaskKey.ofBytes (rest.drop h.extension)).apply payload else payload⟩

theorem payloadLength_append {h : Head} {rest : Bytes} (hx : h.extension ≤ rest.length)
    (more : Bytes) : h.payloadLength (rest ++ more) = h.payloadLength rest := by
  rw [payloadLength, payloadLength, List.take_append_of_le_length hx]

theorem frame_append {h : Head} {rest : Bytes} (hr : h.extra + h.payloadLength rest ≤ rest.length)
    (more : Bytes) : h.frame (rest ++ more) = h.frame rest := by
  have hx : h.extension ≤ h.extra := Nat.le_add_right _ _
  have hn := payloadLength_append (show h.extension ≤ rest.length by omega) more
  have hp : ((rest ++ more).drop h.extra).take (h.payloadLength rest) =
      (rest.drop h.extra).take (h.payloadLength rest) := by
    rw [List.drop_append_of_le_length (by omega),
      List.take_append_of_le_length (by rw [List.length_drop]; omega)]
  rw [frame, frame, hn, hp]
  by_cases hm : h.masked = true
  · have hk : h.extra = h.extension + 4 := by rw [extra, keyLength, if_pos hm]
    have hb : MaskKey.ofBytes ((rest ++ more).drop h.extension) =
        MaskKey.ofBytes (rest.drop h.extension) := by
      rw [List.drop_append_of_le_length (by omega)]
      exact MaskKey.ofBytes_append (by rw [List.length_drop]; omega) more
    rw [hb]
  · rw [if_neg hm, if_neg hm]

end Head

theorem decode_cons_cons (b0 b1 : UInt8) (rest : Bytes) :
    decode (b0 :: b1 :: rest) =
      let h := Head.ofBytes b0 b1
      let n := h.payloadLength rest
      if b0 &&& 0x70 ≠ 0 then .error (.reservedBits (b0 &&& 0x70))
      else if rest.length < h.extra then .ok (.incomplete (h.extra - rest.length))
      else if 2 ^ 63 ≤ n then .error (.invalidLength n)
      else if h.breaksControl n then .error (.invalidControl h.opcode h.fin n)
      else if rest.length < h.extra + n then .ok (.incomplete (h.extra + n - rest.length))
      else .ok (.complete (h.frame rest) (h.length + n)) := by
  dsimp only
  rw [decode]
  by_cases hr : b0 &&& 0x70 ≠ 0
  · rw [if_pos hr, if_pos hr]
  rw [if_neg hr, if_neg hr]
  generalize Head.ofBytes b0 b1 = h
  by_cases hx : rest.length < h.extra
  · have hm : Bytes.missing h.extra rest = h.extra - rest.length - 1 + 1 := by
      rw [Bytes.missing_eq]; omega
    rw [if_pos hx]
    unfold Head.extra at hm hx ⊢
    simp only [hm]
    congr 2
    omega
  have hm : Bytes.missing h.extra rest = 0 := by rw [Bytes.missing_eq]; omega
  rw [if_neg hx]
  unfold Head.extra at hm
  have he : Nat.pow 2 63 = 2 ^ 63 := rfl
  simp only [hm, he]
  generalize hn : h.payloadLength rest = n
  by_cases hl : 2 ^ 63 ≤ n
  · rw [if_pos hl, if_pos hl]
  rw [if_neg hl, if_neg hl]
  by_cases hc : h.breaksControl n = true
  · rw [if_pos hc, if_pos hc]
  rw [if_neg hc, if_neg hc]
  have hd := Bytes.missing_eq n (rest.drop h.extra)
  rw [List.length_drop] at hd
  by_cases hp : rest.length < h.extra + n
  · have he : n - (rest.length - h.extra) = h.extra + n - rest.length - 1 + 1 := by omega
    rw [if_pos hp]
    rw [he] at hd
    unfold Head.extra at hd hp ⊢
    simp only [hd]
    congr 2
    omega
  · rw [if_neg hp, Head.frame, hn]
    rw [show n - (rest.length - h.extra) = 0 by omega] at hd
    unfold Head.extra at hd ⊢
    simp only [hd]

theorem decode_eq_complete_iff {b0 b1 : UInt8} {rest : Bytes} {f : Frame} {n : Nat} :
    decode (b0 :: b1 :: rest) = .ok (.complete f n) ↔
      let h := Head.ofBytes b0 b1
      b0 &&& 0x70 = 0 ∧ h.extra + h.payloadLength rest ≤ rest.length ∧
        h.payloadLength rest < 2 ^ 63 ∧ h.breaksControl (h.payloadLength rest) = false ∧
        h.frame rest = f ∧ h.length + h.payloadLength rest = n := by
  rw [decode_cons_cons]
  dsimp only
  generalize Head.ofBytes b0 b1 = h
  -- One case for each test that is made, in the order in which they are made.
  split_ifs with hr hx hl hc hp
  · simp [hr]
  · simp only [Except.ok.injEq, reduceCtorEq, false_iff]
    omega
  · simp only [false_iff]
    omega
  · simp [hc]
  · simp only [Except.ok.injEq, reduceCtorEq, false_iff]
    omega
  · simp only [ne_eq, Decidable.not_not] at hr
    simp only [Except.ok.injEq, Decoded.complete.injEq, hr, true_and]
    rw [Bool.not_eq_true] at hc
    exact ⟨fun h => ⟨by omega, by omega, hc, h⟩, fun h => h.2.2.2⟩

theorem length_of_isControl {bs : Bytes} {f : Frame} {n : Nat} {opcode : Opcode}
    (h : decode bs = .ok (.complete f n)) (hk : f.kind? = some opcode)
    (hc : opcode.isControl = true) : f.payload.length ≤ 125 := by
  match bs, h with
  | [], h => simp [decode] at h
  | [_], h => simp [decode] at h
  | b0 :: b1 :: rest, h =>
    obtain ⟨-, hp, -, hb, rfl, -⟩ := decode_eq_complete_iff.1 h
    generalize Head.ofBytes b0 b1 = head at hp hb hk ⊢
    have hl : (head.frame rest).payload.length = head.payloadLength rest := by
      have ht : ((rest.drop head.extra).take (head.payloadLength rest)).length =
          head.payloadLength rest := by
        rw [List.length_take, List.length_drop]
        omega
      rw [Head.frame]
      dsimp only
      split
      · rw [MaskKey.length_apply, ht]
      · exact ht
    have hk : Opcode.ofCode? head.opcode = some opcode := hk
    rw [Head.breaksControl, hk, Option.any_some, hc, Bool.true_and, Bool.or_eq_false_iff] at hb
    rw [hl]
    simpa using hb.2

/-- More bytes do not change a frame that is there. -/
theorem decode_append_of_complete {buf : Bytes} {f : Frame} {n : Nat}
    (h : decode buf = .ok (.complete f n)) (more : Bytes) :
    decode (buf ++ more) = .ok (.complete f n) := by
  match buf, h with
  | [], h => simp [decode] at h
  | [_], h => simp [decode] at h
  | b0 :: b1 :: rest, h =>
    obtain ⟨hr, hp, hl, hc, rfl, rfl⟩ := decode_eq_complete_iff.1 h
    have hx : (Head.ofBytes b0 b1).extension ≤ rest.length :=
      Nat.le_trans (Nat.le_add_right _ _) (Nat.le_trans (Nat.le_add_right _ _) hp)
    have hn := Head.payloadLength_append hx more
    rw [List.cons_append, List.cons_append]
    refine decode_eq_complete_iff.2 ?_
    dsimp only
    rw [hn, Head.frame_append hp, List.length_append]
    exact ⟨hr, by omega, hl, hc, rfl, rfl⟩

theorem decode_append_of_error {buf : Bytes} {e : ProtocolError} (h : decode buf = .error e)
    (more : Bytes) : decode (buf ++ more) = .error e := by
  match buf, h with
  | [], h => simp [decode] at h
  | [_], h => simp [decode] at h
  | b0 :: b1 :: rest, h =>
    rw [List.cons_append, List.cons_append, decode_cons_cons]
    rw [decode_cons_cons] at h
    dsimp only at h ⊢
    generalize Head.ofBytes b0 b1 = hd at h ⊢
    -- The first test that fails looks at none of the later bytes.
    by_cases hr : b0 &&& 0x70 ≠ 0
    · rw [if_pos hr] at h ⊢
      exact h
    rw [if_neg hr] at h ⊢
    by_cases hx : rest.length < hd.extra
    · rw [if_pos hx] at h
      simp at h
    have hn := Head.payloadLength_append (Nat.le_trans (Nat.le_add_right _ hd.keyLength)
      (Nat.le_of_not_lt hx)) more
    rw [if_neg hx] at h
    rw [if_neg (by rw [List.length_append]; omega), hn]
    by_cases hl : 2 ^ 63 ≤ hd.payloadLength rest
    · rw [if_pos hl] at h ⊢
      exact h
    rw [if_neg hl] at h ⊢
    by_cases hc : hd.breaksControl (hd.payloadLength rest) = true
    · rw [if_pos hc] at h ⊢
      exact h
    rw [if_neg hc] at h
    split at h <;> simp at h

theorem ofBytes_first (key? : Option MaskKey) (fin : Bool) (opcode : Opcode) (n : Nat) :
    Head.ofBytes ((if fin then 0x80 else 0) ||| opcode.code)
      ((if key?.isSome then 0x80 else 0) ||| baseFor n) =
      ⟨fin, opcode.code, key?.isSome, baseFor n⟩ := by
  have h0 : ((if fin then (0x80 : UInt8) else 0) ||| opcode.code) &&& 0x80 =
        (if fin then 0x80 else 0) ∧
      ((if fin then (0x80 : UInt8) else 0) ||| opcode.code) &&& 0x0F = opcode.code := by
    cases fin <;> cases opcode <;> decide
  -- The flag is the top bit, and what it is joined with stays below it.
  have hb : ∀ k < 128, ∀ flag : Bool,
      ((if flag then (0x80 : UInt8) else 0) ||| UInt8.ofNat k) &&& 0x80 =
          (if flag then 0x80 else 0) ∧
      ((if flag then (0x80 : UInt8) else 0) ||| UInt8.ofNat k) &&& 0x7F = UInt8.ofNat k := by
    decide
  have hk : ∃ k < 128, baseFor n = UInt8.ofNat k := by
    unfold baseFor
    split
    · exact ⟨n, by omega, rfl⟩
    · split
      · exact ⟨126, by omega, rfl⟩
      · exact ⟨127, by omega, rfl⟩
  obtain ⟨k, hk, hkb⟩ := hk
  obtain ⟨h1, h2⟩ := hb k hk key?.isSome
  rw [Head.ofBytes, hkb, h0.1, h0.2, h1, h2]
  cases fin <;> cases key?.isSome <;> rfl

theorem extension_baseFor {h : Head} {n : Nat} (hb : h.base = baseFor n) :
    h.extension = extensionFor n := by
  unfold Head.extension extensionFor
  rw [hb, baseFor]
  by_cases h1 : n ≤ 125
  · -- A short length is neither of the two marks for a longer field.
    have hn : (UInt8.ofNat n).toNat = n := by rw [UInt8.toNat_ofNat']; omega
    have h6 : UInt8.ofNat n ≠ 126 := by
      intro h
      rw [h] at hn
      simp at hn
      omega
    have h7 : UInt8.ofNat n ≠ 127 := by
      intro h
      rw [h] at hn
      simp at hn
      omega
    simp only [if_pos h1, if_neg h6, if_neg h7]
  · by_cases h2 : n ≤ 65535
    · simp only [if_neg h1, if_pos h2, if_true]
    · simp only [if_neg h1, if_neg h2, if_true]
      rfl

theorem payloadLength_baseFor {h : Head} {n : Nat} (hb : h.base = baseFor n) (hn : n < 2 ^ 64)
    (rest : Bytes) : h.payloadLength (Bytes.ofNatBE (extensionFor n) n ++ rest) = n := by
  have htake : (Bytes.ofNatBE (extensionFor n) n ++ rest).take (extensionFor n) =
      Bytes.ofNatBE (extensionFor n) n :=
    List.take_left' (Bytes.length_ofNatBE _ _)
  rw [Head.payloadLength, extension_baseFor hb, htake, Bytes.toNatBE_ofNatBE]
  unfold extensionFor
  by_cases h1 : n ≤ 125
  · rw [if_pos h1, if_pos rfl, hb, baseFor, if_pos h1, UInt8.toNat_ofNat']
    omega
  · by_cases h2 : n ≤ 65535
    · rw [if_neg h1, if_pos h2, if_neg (by decide)]
      omega
    · rw [if_neg h1, if_neg h2, if_neg (by decide)]
      omega

theorem length_encode_bounds (opcode : Opcode) (payload : Bytes) :
    2 + payload.length ≤ (encode opcode payload).length ∧
      (encode opcode payload).length ≤ 10 + payload.length := by
  have hl : (encode opcode payload).length = headerLength payload.length false + payload.length :=
    length_encodeWith none true opcode payload
  have hx : extensionFor payload.length ≤ 8 := by
    unfold extensionFor
    split_ifs <;> decide
  simp only [headerLength, Bool.false_eq_true, if_false] at hl
  omega

/-- A frame that is written is read back, whatever follows it. -/
theorem decode_encodeWith (key? : Option MaskKey) {fin : Bool} {opcode : Opcode} {payload : Bytes}
    (hl : payload.length < 2 ^ 63)
    (hc : opcode.isControl = true → fin = true ∧ payload.length ≤ 125) (rest : Bytes) :
    decode (encodeWith key? fin opcode payload ++ rest) =
      .ok (.complete ⟨fin, opcode.code, key?.isSome, payload⟩
        (encodeWith key? fin opcode payload).length) := by
  have hr : ((if fin then (0x80 : UInt8) else 0) ||| opcode.code) &&& 0x70 = 0 := by
    cases fin <;> cases opcode <;> decide
  rw [length_encodeWith]
  simp only [encodeWith, List.cons_append, List.append_assoc]
  refine decode_eq_complete_iff.2 ?_
  rw [ofBytes_first]
  generalize hh : (⟨fin, opcode.code, key?.isSome, baseFor payload.length⟩ : Head) = h
  have hb : h.base = baseFor payload.length := by rw [← hh]
  have hx := extension_baseFor hb
  have hk : h.keyLength = if key?.isSome then 4 else 0 := by rw [← hh]; rfl
  have hcontrol : h.breaksControl payload.length = false := by
    rw [← hh, Head.breaksControl, Opcode.ofCode?_code]
    by_cases ho : opcode.isControl = true
    · obtain ⟨hf, hp⟩ := hc ho
      simp [hf, hp]
    · simp [ho]
  dsimp only
  rw [payloadLength_baseFor hb (by omega)]
  refine ⟨hr, ?_, hl, hcontrol, ?_, ?_⟩
  · cases key? with
    | none =>
      simp [Head.extra, hx, hk]
    | some key =>
      simp [Head.extra, hx, hk, MaskKey.toBytes]
      omega
  · rw [Head.frame, payloadLength_baseFor hb (by omega), Head.extra, hx, hk]
    rw [← hh]
    cases key? with
    | none => simp
    | some key =>
      -- Behind the length field stands the key, and behind it the payload, masked once already.
      have hd : (Bytes.ofNatBE (extensionFor payload.length) payload.length ++
          (key.toBytes ++ key.apply payload ++ rest)).drop (extensionFor payload.length) =
          key.toBytes ++ key.apply payload ++ rest := List.drop_left' (Bytes.length_ofNatBE _ _)
      have hp : (key.toBytes ++ key.apply payload ++ rest).drop 4 = key.apply payload ++ rest := rfl
      have ht : (key.apply payload ++ rest).take payload.length = key.apply payload :=
        List.take_left' (MaskKey.length_apply _ _)
      simp only [Option.isSome_some, if_true, ← List.drop_drop, hd, hp, ht]
      rw [List.append_assoc,
        MaskKey.ofBytes_append (show 4 ≤ key.toBytes.length from Nat.le_refl 4),
        MaskKey.ofBytes_toBytes, MaskKey.apply_apply]
  · rw [Head.length, hx, hk, headerLength]

end Frame
end SharedCanvas
