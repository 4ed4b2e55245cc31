import SharedCanvas.Proofs.Frame.Written
import SharedCanvas.Proofs.Word

namespace SharedCanvas.Frame

/-- The low bits of the second byte and the length field behind it stand for a payload of `n`
bytes. A field may be longer than `n` needs. -/
inductive LengthField : Nat → Bytes → Nat → Prop
  | short {n : Nat} (h : n ≤ 125) : LengthField n [] n
  | word {field : Bytes} (h : field.length = 2) : LengthField 126 field (Bytes.toNatBE field)
  | long {field : Bytes} (h : field.length = 8) : LengthField 127 field (Bytes.toNatBE field)

/-- What stands before a payload. -/
structure Header where
  fin : Bool
  opcode : Nat
  base : Nat
  field : Bytes
  key? : Option MaskKey

namespace Header

/-- The header on the wire. The three bits between the flag and the opcode are clear. -/
def bytes (h : Header) : Bytes :=
  UInt8.ofNat (128 * h.fin.toNat + h.opcode) ::
    UInt8.ofNat (128 * h.key?.isSome.toNat + h.base) :: h.field ++ h.key?.elim [] MaskKey.toBytes

/-- The header announces a payload of `n` bytes. -/
structure Announces (h : Header) (n : Nat) : Prop where
  opcode : h.opcode < 16
  field : LengthField h.base h.field n

/-- Close, ping and pong come whole and are short. -/
def Allows (h : Header) (n : Nat) : Prop := h.opcode ∈ [8, 9, 10] → h.fin = true ∧ n ≤ 125

def frame (h : Header) (body : Bytes) : Frame :=
  ⟨h.fin, UInt8.ofNat h.opcode, h.key?.isSome, h.key?.elim body fun key => key.apply body⟩

end Header

/-- The bytes are a frame and nothing else. -/
def Spells (bs : Bytes) (f : Frame) : Prop :=
  ∃ (h : Header) (body : Bytes), h.Announces body.length ∧ body.length < 2 ^ 63 ∧
    h.Allows body.length ∧ h.bytes ++ body = bs ∧ h.frame body = f

/-- The faults that the front of a byte string can have. -/
inductive Faulty : Bytes → ProtocolError → Prop
  | reservedBits {b0 b1 : UInt8} {rest : Bytes} (set : b0.toNat / 16 % 8 ≠ 0) :
      Faulty (b0 :: b1 :: rest) (.reservedBits (UInt8.ofNat (16 * (b0.toNat / 16 % 8))))
  | invalidLength {h : Header} {n : Nat} {rest : Bytes} (announced : h.Announces n)
      (top : 2 ^ 63 ≤ n) : Faulty (h.bytes ++ rest) (.invalidLength n)
  | invalidControl {h : Header} {n : Nat} {rest : Bytes} (announced : h.Announces n)
      (top : n < 2 ^ 63) (broken : ¬h.Allows n) :
      Faulty (h.bytes ++ rest) (.invalidControl (UInt8.ofNat h.opcode) h.fin n)

theorem LengthField.base_lt {base n : Nat} {field : Bytes} (h : LengthField base field n) :
    base < 128 := by
  cases h <;> omega

theorem first_bits (fin : Bool) {opcode : Nat} (h : opcode < 16) :
    let b := UInt8.ofNat (128 * fin.toNat + opcode)
    b &&& 0x70 = 0 ∧ (b &&& 0x80 != 0) = fin ∧ b &&& 0x0F = UInt8.ofNat opcode := by
  revert fin opcode
  decide

theorem second_bits (masked : Bool) {base : Nat} (h : base < 128) :
    let b := UInt8.ofNat (128 * masked.toNat + base)
    (b &&& 0x80 != 0) = masked ∧ b &&& 0x7F = UInt8.ofNat base := by
  revert masked base
  decide

theorem eq_ofNat_top (b : UInt8) : ∃ (top : Bool) (low : Nat), low < 128 ∧
    b = UInt8.ofNat (128 * top.toNat + low) ∧ b.toNat = 128 * top.toNat + low := by
  have hb := b.toNat_lt
  have h : b.toNat = 128 * (decide (128 ≤ b.toNat)).toNat + b.toNat % 128 := by
    by_cases ht : 128 ≤ b.toNat
    · simp only [ht, decide_true, Bool.toNat_true]
      omega
    · simp only [ht, decide_false, Bool.toNat_false]
      omega
  refine ⟨decide (128 ≤ b.toNat), b.toNat % 128, Nat.mod_lt _ (by decide), ?_, h⟩
  rw [← h, UInt8.ofNat_toNat]

theorem reserved_bits (b : UInt8) : b &&& 0x70 = UInt8.ofNat (16 * (b.toNat / 16 % 8)) := by
  have h : ∀ k < 256, UInt8.ofNat k &&& 0x70 = UInt8.ofNat (16 * (k / 16 % 8)) := by
    decide +kernel
  have hb := h b.toNat b.toNat_lt
  rwa [UInt8.ofNat_toNat] at hb

theorem reserved_eq_zero_iff (b : UInt8) : b &&& 0x70 = 0 ↔ b.toNat / 16 % 8 = 0 := by
  have h : ∀ k < 8, UInt8.ofNat (16 * k) = 0 ↔ k = 0 := by decide
  rw [reserved_bits]
  exact h _ (Nat.mod_lt _ (by decide))

namespace Header

def head (h : Header) : Head :=
  ⟨h.fin, UInt8.ofNat h.opcode, h.key?.isSome, UInt8.ofNat h.base⟩

variable {h : Header} {n : Nat}

theorem length_bytes (h : Header) :
    h.bytes.length = 2 + h.field.length + if h.key?.isSome then 4 else 0 := by
  rw [bytes]
  cases h.key? with
  | none => simp; omega
  | some key => simp [MaskKey.toBytes]; omega

theorem extension_head (ha : h.Announces n) : h.head.extension = h.field.length := by
  obtain ⟨-, hf⟩ := ha
  unfold Head.extension head
  generalize h.base = base, h.field = field at hf
  cases hf with
  | short hn =>
    have hb : ∀ k ≤ 125, UInt8.ofNat k ≠ 126 ∧ UInt8.ofNat k ≠ 127 := by decide
    rw [if_neg (hb _ hn).1, if_neg (hb _ hn).2, List.length_nil]
  | word hl => rw [hl]; rfl
  | long hl => rw [hl]; rfl

theorem extra_head (ha : h.Announces n) : 2 + h.head.extra = h.bytes.length := by
  rw [length_bytes, Head.extra, extension_head ha, Head.keyLength, Nat.add_assoc]
  rfl

theorem payloadLength_head (ha : h.Announces n) (more : Bytes) :
    h.head.payloadLength (h.field ++ more) = n := by
  rw [Head.payloadLength, extension_head ha, List.take_left]
  obtain ⟨-, hf⟩ := ha
  unfold head
  generalize h.base = base, h.field = field at hf
  cases hf with
  | short hn =>
    show (UInt8.ofNat n).toNat = n
    rw [UInt8.toNat_ofNat']
    omega
  | word hl => rw [if_neg (by omega)]
  | long hl => rw [if_neg (by omega)]

theorem breaksControl_head (ha : h.Announces n) : h.head.breaksControl n = false ↔ h.Allows n := by
  have hc : ∀ k < 16, (Opcode.ofCode? (UInt8.ofNat k)).any Opcode.isControl =
      decide (k ∈ [8, 9, 10]) := by
    decide
  have ho : (Opcode.ofCode? h.head.opcode).any Opcode.isControl = decide (h.opcode ∈ [8, 9, 10]) :=
    hc _ ha.opcode
  rw [Head.breaksControl, ho, Allows]
  show (decide _ && (!h.fin || _)) = false ↔ _
  rw [Bool.and_eq_false_imp, decide_eq_true_iff, Bool.or_eq_false_iff, Bool.not_eq_false',
    decide_eq_false_iff_not, Nat.not_lt]

theorem drop_key (key? : Option MaskKey) (rest : Bytes) :
    (key?.elim [] MaskKey.toBytes ++ rest).drop (if key?.isSome then 4 else 0) = rest := by
  cases key? <;> rfl

theorem frame_head (ha : h.Announces n) (rest : Bytes) :
    h.head.frame (h.field ++ (h.key?.elim [] MaskKey.toBytes ++ rest)) =
      h.frame (rest.take n) := by
  have hd : (h.field ++ (h.key?.elim [] MaskKey.toBytes ++ rest)).drop h.head.extension =
      h.key?.elim [] MaskKey.toBytes ++ rest := List.drop_left' (extension_head ha).symm
  have hx : (h.field ++ (h.key?.elim [] MaskKey.toBytes ++ rest)).drop h.head.extra = rest := by
    rw [Head.extra, ← List.drop_drop, hd]
    exact drop_key h.key? rest
  rw [Head.frame, payloadLength_head ha, hx, hd, head, frame]
  cases h.key? with
  | none => rfl
  | some key => rfl

theorem decode_bytes_append (ha : h.Announces n) (rest : Bytes) :
    decode (h.bytes ++ rest) =
      if 2 ^ 63 ≤ n then .error (.invalidLength n)
      else if h.head.breaksControl n then .error (.invalidControl (UInt8.ofNat h.opcode) h.fin n)
      else if rest.length < n then .ok (.incomplete (n - rest.length))
      else .ok (.complete (h.frame (rest.take n)) (h.bytes.length + n)) := by
  obtain ⟨hr, hf, ho⟩ := first_bits h.fin ha.opcode
  obtain ⟨hm, hb⟩ := second_bits h.key?.isSome ha.field.base_lt
  have hh : Head.ofBytes (UInt8.ofNat (128 * h.fin.toNat + h.opcode))
      (UInt8.ofNat (128 * h.key?.isSome.toNat + h.base)) = h.head := by
    rw [Head.ofBytes, hf, ho, hm, hb, head]
  have hx := extra_head ha
  have hl : (h.field ++ (h.key?.elim [] MaskKey.toBytes ++ rest)).length =
      h.head.extra + rest.length := by
    rw [← List.append_assoc, List.length_append]
    simp only [bytes, List.cons_append, List.length_cons] at hx
    omega
  have hn : h.head.length = 2 + h.head.extra := by
    rw [Head.length, Head.extra, Nat.add_assoc]
  simp only [bytes, List.cons_append, List.append_assoc] at hx ⊢
  rw [decode_cons_cons]
  dsimp only
  rw [hh, payloadLength_head ha, frame_head ha, hl, hn, hx, if_neg (not_not.2 hr),
    if_neg (by omega)]
  simp only [Nat.add_lt_add_iff_left, Nat.add_sub_add_left]
  rfl

theorem exists_lengthField {head : Head} {base : Nat} {bs : Bytes} (hb : base < 128)
    (hh : head.base = UInt8.ofNat base) (hl : head.extension ≤ bs.length) :
    ∃ n, LengthField base (bs.take head.extension) n := by
  have hs : ∀ k < 126, UInt8.ofNat k ≠ 126 ∧ UInt8.ofNat k ≠ 127 := by decide
  unfold Head.extension at hl ⊢
  rw [hh] at hl ⊢
  by_cases h6 : base = 126
  · subst h6
    exact ⟨_, .word (List.length_take_of_le hl)⟩
  by_cases h7 : base = 127
  · subst h7
    exact ⟨_, .long (List.length_take_of_le hl)⟩
  rw [if_neg (hs base (by omega)).1, if_neg (hs base (by omega)).2, List.take_zero]
  exact ⟨base, .short (by omega)⟩

theorem exists_key {masked : Bool} {bs : Bytes} (hl : (if masked then 4 else 0) ≤ bs.length) :
    ∃ (key? : Option MaskKey) (tail : Bytes), key?.isSome = masked ∧
      bs = key?.elim [] MaskKey.toBytes ++ tail := by
  cases masked with
  | false => exact ⟨none, bs, rfl, rfl⟩
  | true =>
    match bs, hl with
    | k0 :: k1 :: k2 :: k3 :: tail, _ => exact ⟨some ⟨k0, k1, k2, k3⟩, tail, rfl, rfl⟩

theorem exists_of_head {b0 b1 : UInt8} {rest : Bytes} (hr : b0 &&& 0x70 = 0)
    (hx : (Head.ofBytes b0 b1).extra ≤ rest.length) :
    ∃ (h : Header) (n : Nat) (tail : Bytes), h.Announces n ∧
      b0 :: b1 :: rest = h.bytes ++ tail := by
  obtain ⟨fin, opcode, hol, hb0, h0⟩ := eq_ofNat_top b0
  obtain ⟨masked, base, hbl, hb1, -⟩ := eq_ofNat_top b1
  have ho : opcode < 16 := by
    have hz := (reserved_eq_zero_iff b0).1 hr
    have ht : fin.toNat ≤ 1 := fin.toNat_le
    omega
  obtain ⟨hm, hb⟩ := second_bits masked hbl
  rw [← hb1] at hm hb
  have hk : (Head.ofBytes b0 b1).keyLength = if masked then 4 else 0 := by
    rw [Head.keyLength, Head.ofBytes, hm]
  rw [Head.extra, hk] at hx
  obtain ⟨n, hf⟩ := exists_lengthField hbl (show (Head.ofBytes b0 b1).base = _ from hb)
    (Nat.le_trans (Nat.le_add_right _ _) hx)
  have hkey : (if masked then 4 else 0) ≤ (rest.drop (Head.ofBytes b0 b1).extension).length := by
    rw [List.length_drop]
    omega
  obtain ⟨key?, tail, hs, hd⟩ := exists_key hkey
  refine ⟨⟨fin, opcode, base, _, key?⟩, n, tail, ⟨ho, hf⟩, ?_⟩
  simp only [bytes, List.cons_append, List.append_assoc]
  rw [hs, ← hb0, ← hb1, ← hd, List.take_append_drop]

end Header

variable {buf : Bytes}

/-- A byte string is too short for a header, has reserved bits set, or starts with a header. -/
theorem front_cases (buf : Bytes) :
    (∃ m, decode buf = .ok (.incomplete m)) ∨
      (∃ (b0 b1 : UInt8) (rest : Bytes), b0.toNat / 16 % 8 ≠ 0 ∧ buf = b0 :: b1 :: rest) ∨
      ∃ (h : Header) (n : Nat) (rest : Bytes), h.Announces n ∧ buf = h.bytes ++ rest := by
  match buf with
  | [] => exact .inl ⟨2, rfl⟩
  | [_] => exact .inl ⟨1, rfl⟩
  | b0 :: b1 :: rest =>
    by_cases hr : b0 &&& 0x70 = 0
    · by_cases hx : rest.length < (Head.ofBytes b0 b1).extra
      · refine .inl ⟨(Head.ofBytes b0 b1).extra - rest.length, ?_⟩
        rw [decode_cons_cons]
        dsimp only
        rw [if_neg (not_not.2 hr), if_pos hx]
      · exact .inr (.inr (Header.exists_of_head hr (Nat.le_of_not_lt hx)))
    · exact .inr (.inl ⟨b0, b1, rest, fun h => hr ((reserved_eq_zero_iff b0).2 h), rfl⟩)

theorem decode_of_reserved {b0 : UInt8} (h : b0.toNat / 16 % 8 ≠ 0) (b1 : UInt8) (rest : Bytes) :
    decode (b0 :: b1 :: rest) =
      .error (.reservedBits (UInt8.ofNat (16 * (b0.toNat / 16 % 8)))) := by
  rw [decode_cons_cons]
  dsimp only
  rw [if_pos fun hz => h ((reserved_eq_zero_iff b0).1 hz), reserved_bits]

theorem decode_of_spells {bs : Bytes} {f : Frame} (h : Spells bs f) (more : Bytes) :
    decode (bs ++ more) = .ok (.complete f bs.length) := by
  obtain ⟨h, body, ha, hl, hc, rfl, rfl⟩ := h
  rw [List.append_assoc, Header.decode_bytes_append ha, if_neg (by omega),
    (Header.breaksControl_head ha).2 hc, if_neg Bool.false_ne_true,
    if_neg (by rw [List.length_append]; omega), List.take_left, List.length_append]

theorem decode_of_faulty {e : ProtocolError} (h : Faulty buf e) : decode buf = .error e := by
  cases h with
  | reservedBits set => exact decode_of_reserved set _ _
  | invalidLength announced top => rw [Header.decode_bytes_append announced, if_pos top]
  | invalidControl announced top broken =>
    rw [← Header.breaksControl_head announced, Bool.not_eq_false] at broken
    rw [Header.decode_bytes_append announced, if_neg (by omega), if_pos broken]

/-- What the reader answers, it has read: a frame of the grammar, or one of the faults. -/
theorem decode_sound (buf : Bytes) :
    match decode buf with
    | .ok (.complete f n) => n ≤ buf.length ∧ Spells (buf.take n) f
    | .ok (.incomplete _) => True
    | .error e => Faulty buf e := by
  obtain ⟨m, hm⟩ | ⟨b0, b1, rest, hr, rfl⟩ | ⟨h, n, rest, ha, rfl⟩ := front_cases buf
  · rw [hm]
    trivial
  · rw [decode_of_reserved hr]
    exact .reservedBits hr
  · rw [Header.decode_bytes_append ha]
    by_cases hl : 2 ^ 63 ≤ n
    · rw [if_pos hl]
      exact .invalidLength ha hl
    rw [if_neg hl]
    by_cases hc : h.head.breaksControl n = true
    · rw [if_pos hc]
      refine .invalidControl ha (by omega) fun hallow => ?_
      rw [(Header.breaksControl_head ha).2 hallow] at hc
      exact Bool.false_ne_true hc
    rw [if_neg hc]
    by_cases hp : rest.length < n
    · rw [if_pos hp]
      trivial
    rw [if_neg hp]
    have ht : (rest.take n).length = n := List.length_take_of_le (by omega)
    rw [Bool.not_eq_true, Header.breaksControl_head ha] at hc
    rw [← ht] at ha hl hc
    refine ⟨by rw [List.length_append]; omega, h, rest.take n, ha, by omega, hc, ?_, rfl⟩
    rw [List.take_length_add_append]

theorem decode_eq_complete (buf : Bytes) (f : Frame) (n : Nat) :
    decode buf = .ok (.complete f n) ↔ n ≤ buf.length ∧ Spells (buf.take n) f := by
  constructor
  · intro h
    have hs := decode_sound buf
    rwa [h] at hs
  · intro ⟨hn, hs⟩
    have hd := decode_of_spells hs (buf.drop n)
    rwa [List.take_append_drop, List.length_take_of_le hn] at hd

theorem decode_eq_error (buf : Bytes) (e : ProtocolError) :
    decode buf = .error e ↔ Faulty buf e := by
  constructor
  · intro h
    have hs := decode_sound buf
    rwa [h] at hs
  · exact decode_of_faulty

def lengthAt (buf : Bytes) (base : UInt8) : Except Slip Nat := do
  if base = 126 then
    return Bytes.toNatBE [← buf.byteAt 2, ← buf.byteAt 3]
  else if base = 127 then
    return Bytes.toNatBE (← buf.slice 2 10)
  else
    return base.toNat

def keyAt (buf : Bytes) (start : Nat) : Except Slip MaskKey := do
  return ⟨← buf.byteAt (← Word.sub start 4), ← buf.byteAt (← Word.sub start 3),
    ← buf.byteAt (← Word.sub start 2), ← buf.byteAt (← Word.sub start 1)⟩

def payloadAt (buf : Bytes) (masked : Bool) (start total : Nat) : Except Slip Bytes := do
  let body ← buf.slice start total
  if masked then
    return (← keyAt buf start).apply body
  else
    return body

/-- `decode` by places in the buffer. The sum that may be too large is asked for, the others are
not. -/
def decodeAt (buf : Bytes) : Except Slip (Except ProtocolError Decoded) := do
  if buf.length < 2 then
    return .ok (.incomplete (← Word.sub 2 buf.length))
  else
    let b0 ← buf.byteAt 0
    let b1 ← buf.byteAt 1
    if b0 &&& 0x70 ≠ 0 then
      return .error (.reservedBits (b0 &&& 0x70))
    else
      let head := Head.ofBytes b0 b1
      let start ← Word.add (← Word.add 2 head.extension) head.keyLength
      if buf.length < start then
        return .ok (.incomplete (← Word.sub start buf.length))
      else
        let n ← lengthAt buf head.base
        if 2 ^ 63 ≤ n then
          return .error (.invalidLength n)
        else if head.breaksControl n then
          return .error (.invalidControl head.opcode head.fin n)
        else match Word.add n start with
          | .error _ => return .error (.frameTooLarge n)
          | .ok total =>
            if buf.length < total then
              return .ok (.incomplete (← Word.sub total buf.length))
            else
              let payload ← payloadAt buf head.masked start total
              return .ok (.complete ⟨head.fin, head.opcode, head.masked, payload⟩ total)

theorem Head.extension_le (h : Head) : h.extension ≤ 8 := by
  unfold Head.extension
  split_ifs <;> decide

theorem Head.keyLength_le (h : Head) : h.keyLength ≤ 4 := by
  unfold Head.keyLength
  split_ifs <;> decide

theorem lengthAt_cons_cons {h : Head} {rest : Bytes} (b0 b1 : UInt8)
    (hx : h.extension ≤ rest.length) :
    lengthAt (b0 :: b1 :: rest) h.base = .ok (h.payloadLength rest) := by
  unfold lengthAt Head.payloadLength
  unfold Head.extension at hx ⊢
  by_cases h6 : h.base = 126
  · rw [if_pos h6] at hx ⊢
    match rest, hx with
    | r0 :: r1 :: rest, _ =>
      rw [if_pos h6]
      rfl
  by_cases h7 : h.base = 127
  · rw [if_neg h6, if_pos h7] at hx ⊢
    rw [if_neg h6, if_pos h7,
      Bytes.slice_of_le (by decide) (by simp only [List.length_cons]; omega)]
    rfl
  · rw [if_neg h6, if_neg h7] at hx ⊢
    rw [if_neg h6, if_neg h7]
    rfl

theorem keyAt_eq {i : Nat} (h : i + 4 ≤ buf.length) :
    keyAt buf (i + 4) = .ok (MaskKey.ofBytes (buf.drop i)) := by
  have hd : ∀ k < 4, buf[i + k]? = some ((buf.drop i).getD k 0) := by
    intro k hk
    rw [List.getD_eq_getElem?_getD, List.getElem?_drop, List.getElem?_eq_getElem (by omega)]
    rfl
  have hb : ∀ k < 4, Bytes.byteAt buf (i + k) = .ok ((buf.drop i).getD k 0) := by
    intro k hk
    rw [Bytes.byteAt, hd k hk]
    rfl
  rw [keyAt, Word.sub_of_le (by omega), Word.sub_of_le (by omega), Word.sub_of_le (by omega),
    Word.sub_of_le (by omega)]
  show (do return ⟨← buf.byteAt (i + 0), ← buf.byteAt (i + 1), ← buf.byteAt (i + 2),
    ← buf.byteAt (i + 3)⟩ : Except Slip MaskKey) = _
  rw [hb 0 (by decide), hb 1 (by decide), hb 2 (by decide), hb 3 (by decide)]
  rfl

theorem payloadAt_cons_cons {h : Head} {rest : Bytes} (b0 b1 : UInt8)
    (hp : h.extra + h.payloadLength rest ≤ rest.length) :
    payloadAt (b0 :: b1 :: rest) h.masked (2 + h.extra) (2 + h.extra + h.payloadLength rest) =
      .ok (h.frame rest).payload := by
  have hs : Bytes.slice (b0 :: b1 :: rest) (2 + h.extra) (2 + h.extra + h.payloadLength rest) =
      .ok ((rest.drop h.extra).take (h.payloadLength rest)) := by
    rw [Bytes.slice_of_le (by omega) (by simp only [List.length_cons]; omega), List.drop_take,
      Nat.add_sub_cancel_left, ← List.drop_drop]
    rfl
  rw [payloadAt, hs, Head.frame]
  by_cases hm : h.masked = true
  · have hx : h.extra = h.extension + 4 := by rw [Head.extra, Head.keyLength, if_pos hm]
    have hk : keyAt (b0 :: b1 :: rest) (2 + h.extra) =
        .ok (MaskKey.ofBytes (rest.drop h.extension)) := by
      rw [hx, ← Nat.add_assoc, keyAt_eq (by simp only [List.length_cons]; omega),
        ← List.drop_drop]
      rfl
    simp only [hm, hk, if_true]
    rfl
  · simp only [hm, if_neg Bool.false_ne_true]
    rfl

/-- No place that is looked at is outside the buffer, and no sum or difference leaves the word. -/
theorem decodeAt_eq (buf : Bytes) : decodeAt buf = .ok (decode buf) := by
  match buf with
  | [] => rfl
  | [_] => rfl
  | b0 :: b1 :: rest =>
    have hb : ¬(b0 :: b1 :: rest).length < 2 := by simp
    have h0 : Bytes.byteAt (b0 :: b1 :: rest) 0 = .ok b0 := rfl
    have h1 : Bytes.byteAt (b0 :: b1 :: rest) 1 = .ok b1 := rfl
    have hw : 2 ^ 63 + 14 ≤ maxWord64 := by decide
    rw [decodeAt, if_neg hb, h0, h1, decode_cons_cons]
    dsimp only [bind, Except.bind]
    by_cases hr : b0 &&& 0x70 ≠ 0
    · rw [if_pos hr, if_pos hr]
      rfl
    rw [if_neg hr, if_neg hr]
    generalize Head.ofBytes b0 b1 = h
    have hle := h.extension_le
    have hkl := h.keyLength_le
    have hs : 2 + h.extension + h.keyLength = 2 + h.extra := by rw [Head.extra, Nat.add_assoc]
    rw [Word.add_of_le (by omega)]
    dsimp only
    rw [Word.add_of_le (by omega), hs]
    have hlen : (b0 :: b1 :: rest).length = rest.length + 2 := rfl
    dsimp only
    rw [hlen]
    by_cases hx : rest.length < h.extra
    · rw [if_pos (by omega), if_pos hx, Word.sub_of_le (by omega),
        show 2 + h.extra - (rest.length + 2) = h.extra - rest.length by omega]
      rfl
    rw [if_neg (by omega), if_neg hx,
      lengthAt_cons_cons b0 b1 (Nat.le_trans (Nat.le_add_right _ h.keyLength) (by
        rw [← Head.extra]; omega))]
    dsimp only
    by_cases hl : 2 ^ 63 ≤ h.payloadLength rest
    · rw [if_pos hl, if_pos hl]
      rfl
    rw [if_neg hl, if_neg hl]
    by_cases hc : h.breaksControl (h.payloadLength rest) = true
    · rw [if_pos hc, if_pos hc]
      rfl
    have hsum : h.payloadLength rest + (2 + h.extra) = 2 + h.extra + h.payloadLength rest :=
      Nat.add_comm _ _
    rw [if_neg hc, if_neg hc, Word.add_of_le (by rw [Head.extra]; omega), hsum]
    dsimp only
    by_cases hp : rest.length < h.extra + h.payloadLength rest
    · rw [if_pos (by omega), if_pos hp, Word.sub_of_le (by omega),
        show 2 + h.extra + h.payloadLength rest - (rest.length + 2) =
          h.extra + h.payloadLength rest - rest.length by omega]
      rfl
    · rw [if_neg (by omega), if_neg hp, payloadAt_cons_cons b0 b1 (by omega), Head.length, hs]
      rfl

/-- The reader against the grammar: it takes the frames of the grammar, answers each fault by its
name, and waits for more where there is neither. None of its steps can go wrong. -/
theorem decode_iff_grammar (buf : Bytes) :
    (∀ f n, decode buf = .ok (.complete f n) ↔ n ≤ buf.length ∧ Spells (buf.take n) f) ∧
    (∀ e, decode buf = .error e ↔ Faulty buf e) ∧
    ((∃ m, decode buf = .ok (.incomplete m)) ↔
      (∀ f n, n ≤ buf.length → ¬Spells (buf.take n) f) ∧ ∀ e, ¬Faulty buf e) ∧
    decodeAt buf = .ok (decode buf) := by
  refine ⟨decode_eq_complete buf, decode_eq_error buf, ?_, decodeAt_eq buf⟩
  constructor
  · intro ⟨m, hm⟩
    refine ⟨fun f n hn hs => ?_, fun e he => ?_⟩
    · simp [(decode_eq_complete buf f n).2 ⟨hn, hs⟩] at hm
    · simp [decode_of_faulty he] at hm
  · intro ⟨hs, he⟩
    match hd : decode buf with
    | .ok (.incomplete m) => exact ⟨m, rfl⟩
    | .ok (.complete f n) =>
      obtain ⟨hn, hf⟩ := (decode_eq_complete buf f n).1 hd
      exact absurd hf (hs f n hn)
    | .error e => exact absurd ((decode_eq_error buf e).1 hd) (he e)

/-- A length may be spelled with more bytes than it needs, and an opcode may be one without a
name. -/
example : decode [0x8B, 0x7E, 0x00, 0x01, 0x2A, 0xFF] =
    .ok (.complete ⟨true, 0xB, false, [0x2A]⟩ 5) := by
  decide

end SharedCanvas.Frame
