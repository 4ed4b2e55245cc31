import SharedCanvas.Proofs.Frame.Grammar

namespace SharedCanvas.Frame

/-- What the reader looks for next. -/
inductive Stage
  | start
  | header
  | payload

/-- The bytes have come to a stage and are `k` short of its end. -/
inductive Lacks : Stage → Bytes → Nat → Prop
  | start {buf : Bytes} {k : Nat} (short : buf.length + k = 2) : Lacks .start buf k
  | header {b0 b1 : UInt8} {rest : Bytes} {k : Nat} (clear : b0 &&& 0x70 = 0)
      (short : rest.length + k = (Head.ofBytes b0 b1).extra) : Lacks .header (b0 :: b1 :: rest) k
  | payload {h : Header} {n k : Nat} {rest : Bytes} (announced : h.Announces n) (top : n < 2 ^ 63)
      (allowed : h.Allows n) (short : rest.length + k = n) : Lacks .payload (h.bytes ++ rest) k

def HasHeader (buf : Bytes) : Prop := ∃ (h : Header) (n : Nat), h.Announces n ∧ h.bytes <+: buf

variable {stage : Stage} {buf more : Bytes} {k : Nat}

theorem hasHeader_of_le {b0 b1 : UInt8} {rest : Bytes} (clear : b0 &&& 0x70 = 0)
    (hx : (Head.ofBytes b0 b1).extra ≤ rest.length) : HasHeader (b0 :: b1 :: rest) := by
  obtain ⟨h, n, tail, ha, he⟩ := Header.exists_of_head clear hx
  exact ⟨h, n, ha, tail, he.symm⟩

/-- Bytes that come leave the stage what it is, and as many fewer are lacking. -/
theorem Lacks.append (hl : Lacks stage buf k) (hm : more.length ≤ k) :
    Lacks stage (buf ++ more) (k - more.length) := by
  cases hl with
  | start short => exact .start (by rw [List.length_append]; omega)
  | header clear short =>
    rw [List.cons_append, List.cons_append]
    exact .header clear (by rw [List.length_append]; omega)
  | payload announced top allowed short =>
    rw [List.append_assoc]
    exact .payload announced top allowed (by rw [List.length_append]; omega)

theorem decode_of_lacks (hl : Lacks stage buf k) (hk : 0 < k) :
    decode buf = .ok (.incomplete k) := by
  cases hl with
  | start short =>
    match buf, short with
    | [], short =>
      obtain rfl : k = 2 := by simpa using short
      rfl
    | [_], short =>
      obtain rfl : k = 1 := by simpa [Nat.add_comm] using short
      rfl
    | _ :: _ :: _, short =>
      simp only [List.length_cons] at short
      omega
  | @header b0 b1 rest _ clear short =>
    have hs : (Head.ofBytes b0 b1).extra - rest.length = k := by omega
    rw [decode_cons_cons]
    dsimp only
    rw [if_neg (not_not.2 clear), if_pos (by omega), hs]
  | @payload h n _ rest announced top allowed short =>
    have hs : n - rest.length = k := by omega
    rw [Header.decode_bytes_append announced, if_neg (by omega),
      (Header.breaksControl_head announced).2 allowed, if_neg Bool.false_ne_true,
      if_pos (by omega), hs]

/-- Where nothing is lacking of the payload, the bytes are a frame. -/
theorem Lacks.exists_complete (hl : Lacks .payload buf 0) :
    ∃ f, decode buf = .ok (.complete f buf.length) := by
  cases hl with
  | @payload h n _ rest announced top allowed short =>
    rw [Nat.add_zero] at short
    subst short
    have hs : Spells (h.bytes ++ rest) (h.frame rest) :=
      ⟨h, rest, announced, top, allowed, rfl, rfl⟩
    have hd := decode_of_spells hs []
    rw [List.append_nil] at hd
    exact ⟨_, hd⟩

theorem lacks_payload {h : Header} {n : Nat} {rest : Bytes} (ha : h.Announces n)
    (hd : decode (h.bytes ++ rest) = .ok (.incomplete k)) :
    0 < k ∧ Lacks .payload (h.bytes ++ rest) k := by
  rw [Header.decode_bytes_append ha] at hd
  by_cases hl : 2 ^ 63 ≤ n
  · rw [if_pos hl] at hd
    cases hd
  rw [if_neg hl] at hd
  by_cases hc : h.head.breaksControl n = true
  · rw [if_pos hc] at hd
    cases hd
  rw [if_neg hc] at hd
  rw [Bool.not_eq_true, Header.breaksControl_head ha] at hc
  by_cases hp : rest.length < n
  · rw [if_pos hp, Except.ok.injEq, Decoded.incomplete.injEq] at hd
    exact ⟨by omega, .payload ha (by omega) hc (by omega)⟩
  · rw [if_neg hp] at hd
    cases hd

/-- What a reader that waits is waiting for. -/
theorem lacks_of_decode (hd : decode buf = .ok (.incomplete k)) :
    0 < k ∧ ∃ stage, Lacks stage buf k := by
  match buf, hd with
  | [], hd =>
    obtain rfl : 2 = k := by simpa [decode] using hd
    exact ⟨by decide, .start, .start rfl⟩
  | [_], hd =>
    obtain rfl : 1 = k := by simpa [decode] using hd
    exact ⟨by decide, .start, .start rfl⟩
  | b0 :: b1 :: rest, hd =>
    by_cases hr : b0 &&& 0x70 = 0
    · by_cases hx : rest.length < (Head.ofBytes b0 b1).extra
      · rw [decode_cons_cons] at hd
        dsimp only at hd
        rw [if_neg (not_not.2 hr), if_pos hx, Except.ok.injEq, Decoded.incomplete.injEq] at hd
        exact ⟨by omega, .header, .header hr (by omega)⟩
      · obtain ⟨h, n, ha, tail, he⟩ := hasHeader_of_le hr (Nat.le_of_not_lt hx)
        rw [← he] at hd ⊢
        obtain ⟨hk, hl⟩ := lacks_payload ha hd
        exact ⟨hk, .payload, hl⟩
    · rw [decode_of_reserved fun h => hr ((reserved_eq_zero_iff b0).2 h)] at hd
      cases hd

theorem Lacks.append_all (hl : Lacks stage buf k) (hm : more.length = k) :
    Lacks stage (buf ++ more) 0 := by
  have h := hl.append (Nat.le_of_eq hm)
  rwa [hm, Nat.sub_self] at h

theorem Lacks.hasHeader (hl : Lacks stage buf 0) (hs : stage ≠ .start) : HasHeader buf := by
  cases hl with
  | start short => exact absurd rfl hs
  | header clear short => exact hasHeader_of_le clear (Nat.le_of_eq short.symm)
  | @payload h n _ rest announced => exact ⟨h, n, announced, rest, rfl⟩

/-- The number that the reader names is the number that it waits for. Fewer bytes only lower it, and
show no fault either. As many make a header of two bytes, and of a header the frame, down to its
last byte. -/
theorem shortfall_of_incomplete {needed : Nat} (hd : decode buf = .ok (.incomplete needed)) :
    1 ≤ needed ∧
    (∀ more : Bytes, more.length < needed →
      decode (buf ++ more) = .ok (.incomplete (needed - more.length))) ∧
    (HasHeader buf → ∀ more : Bytes, more.length = needed →
      ∃ f, decode (buf ++ more) = .ok (.complete f (buf ++ more).length)) ∧
    (2 ≤ buf.length → ∀ more : Bytes, more.length = needed → HasHeader (buf ++ more)) := by
  obtain ⟨hk, stage, hl⟩ := lacks_of_decode hd
  refine ⟨hk, ?_, ?_, ?_⟩
  · intro more hm
    exact decode_of_lacks (hl.append (Nat.le_of_lt hm)) (Nat.sub_pos_of_lt hm)
  · rintro ⟨h, n, ha, rest, rfl⟩ more hm
    exact ((lacks_payload ha hd).2.append_all hm).exists_complete
  · intro h2 more hm
    refine (hl.append_all hm).hasHeader ?_
    -- With two bytes there, the first stage lacks nothing.
    rintro rfl
    cases hl with
    | start short => omega

/-- A masked frame of 256 bytes, two of which have come. -/
theorem shortfall_of_incomplete_two_of_many :
    let buf : Bytes := [0x82, 0xFE, 0x01, 0x00, 1, 2, 3, 4, 7, 7]
    decode buf = .ok (.incomplete 254) ∧ HasHeader buf ∧ 2 ≤ buf.length ∧
      decode (buf ++ [5, 6]) = .ok (.incomplete 252) ∧
      (∃ f, decode (buf ++ List.replicate 254 0) = .ok (.complete f 264)) ∧
      HasHeader (buf ++ List.replicate 254 0) := by
  intro buf
  have hd : decode buf = .ok (.incomplete 254) := by decide
  have hh : HasHeader buf :=
    ⟨⟨true, 2, 126, [0x01, 0x00], some ⟨1, 2, 3, 4⟩⟩, _, ⟨by decide, .word rfl⟩, [7, 7], rfl⟩
  have h2 : 2 ≤ buf.length := by decide
  have hl : (List.replicate 254 (0 : UInt8)).length = 254 := List.length_replicate
  have hlen : (buf ++ List.replicate 254 0).length = 264 := by
    rw [List.length_append, hl]
    rfl
  obtain ⟨-, hfewer, hframe, hheader⟩ := shortfall_of_incomplete hd
  obtain ⟨f, hf⟩ := hframe hh _ hl
  rw [hlen] at hf
  exact ⟨hd, hh, h2, hfewer [5, 6] (by decide), ⟨f, hf⟩, hheader h2 _ hl⟩

/-- Without the key a length is no header yet: the bytes that are named complete the header only. -/
example : decode [0x82, 0xFE, 0x00, 0x05] = .ok (.incomplete 4) ∧
    decode ([0x82, 0xFE, 0x00, 0x05] ++ [1, 2, 3, 4]) = .ok (.incomplete 5) := by
  decide

end SharedCanvas.Frame
