import SharedCanvas.Canvas.Binary

namespace SharedCanvas

theorem Bytes.ofWordLE_toWordLE (lo hi : UInt8) : ofWordLE (toWordLE lo hi) = [lo, hi] := by
  have hlo := lo.toNat_lt
  have hhi := hi.toNat_lt
  have hn : (toWordLE lo hi).toNat = lo.toNat + 256 * hi.toNat := by
    rw [toWordLE, UInt16.toNat_ofNat', Nat.mod_eq_of_lt (by omega)]
  have h0 : (toWordLE lo hi).toUInt8 = lo := by
    apply UInt8.toNat.inj
    rw [UInt16.toNat_toUInt8, hn]
    omega
  have h1 : (toWordLE lo hi >>> 8).toUInt8 = hi := by
    apply UInt8.toNat.inj
    rw [UInt16.toNat_toUInt8, UInt16.toNat_shiftRight, hn]
    simp only [UInt16.reduceToNat, Nat.shiftRight_eq_div_pow, Nat.reduceMod, Nat.reducePow]
    omega
  rw [ofWordLE, h0, h1]

namespace Pixel

theorem appendRecords_eq (ps : List Pixel) (out : Bytes) :
    appendRecords ps out = out ++ toRecords ps := by
  induction ps generalizing out with
  | nil => exact (List.append_nil out).symm
  | cons p ps ih =>
    change appendRecords ps (out ++ Bytes.ofWordLE p.x ++ Bytes.ofWordLE p.y ++ [p.color]) = _
    rw [ih, toRecords, toRecords, List.flatMap_cons, record]
    simp only [List.append_assoc]

theorem ofRecords_toRecords_append (ps : List Pixel) (rest : Bytes) :
    ofRecords (toRecords ps ++ rest) = ps ++ ofRecords rest := by
  induction ps with
  | nil => rfl
  | cons p ps ih =>
    rw [toRecords, List.flatMap_cons, ← toRecords, List.append_assoc, ofRecords_record_append, ih]
    rfl

theorem ofRecords_of_length_lt {bs : Bytes} (h : bs.length < 5) : ofRecords bs = [] := by
  unfold ofRecords
  split
  · simp only [List.length_cons] at h
    omega
  · rfl

/-- Of any bytes, those are written again that make whole records. -/
theorem toRecords_ofRecords (bs : Bytes) :
    toRecords (ofRecords bs) = bs.take (5 * (bs.length / 5)) := by
  induction bs using ofRecords.induct with
  | case1 a b c d e rest ih =>
    have hn : 5 * ((a :: b :: c :: d :: e :: rest).length / 5) = 5 * (rest.length / 5) + 5 := by
      simp only [List.length_cons]
      omega
    rw [ofRecords, toRecords, List.flatMap_cons, ← toRecords, record, Bytes.ofWordLE_toWordLE,
      Bytes.ofWordLE_toWordLE, ih, hn]
    rfl
  | case2 bs h =>
    have hl : bs.length < 5 := by
      rcases bs with _ | ⟨a, _ | ⟨b, _ | ⟨c, _ | ⟨d, _ | ⟨e, rest⟩⟩⟩⟩⟩
      case cons.cons.cons.cons.cons => exact (h a b c d e rest rfl).elim
      all_goals simp
    rw [ofRecords_of_length_lt hl, Nat.div_eq_of_lt hl]
    rfl

theorem ofRecords_append {a : Bytes} (h : 5 ∣ a.length) (b : Bytes) :
    ofRecords (a ++ b) = ofRecords a ++ ofRecords b := by
  have ha : toRecords (ofRecords a) = a := by
    rw [toRecords_ofRecords, Nat.mul_div_cancel' h, List.take_length]
  calc ofRecords (a ++ b) = ofRecords (toRecords (ofRecords a) ++ b) := by rw [ha]
    _ = ofRecords a ++ ofRecords b := ofRecords_toRecords_append _ b

end Pixel

namespace Snapshot

/-- A picture is written whatever its size, and read back if its sides call for that size. -/
theorem decode_encode_eq (s : Snapshot) :
    decode s.encode =
      if s.pixels.length = s.area then .ok s
      else .error (.snapshotSize s.pixels.length s.area) := by
  simp only [encode, Bytes.ofWordLE, List.cons_append, List.nil_append, decode,
    Bytes.toWordLE_ofWordLE]

theorem decode_encode {s : Snapshot} (h : s.pixels.length = s.area) : decode s.encode = .ok s := by
  rw [decode_encode_eq, if_pos h]

theorem encode_of_decode {bs : Bytes} {s : Snapshot} (h : decode bs = .ok s) : s.encode = bs := by
  unfold decode at h
  split at h
  · dsimp only at h
    split at h
    · rw [Except.ok.injEq] at h
      rw [← h, encode, Bytes.ofWordLE_toWordLE, Bytes.ofWordLE_toWordLE]
      rfl
    · cases h
  · cases h

end Snapshot

/-- Writing and reading are inverse to each other. Pixels are read from what is written of them,
behind whatever it stands and with less than a record after it, and of any bytes the whole records
are written again. A picture is read back if it has as many cells as its sides call for, and refused
with the two numbers if not; one that is read is written as it came. -/
theorem payloads_invert :
    (∀ (ps : List Pixel) (out tail : Bytes), tail.length < 5 →
      Pixel.appendRecords ps out = out ++ Pixel.toRecords ps ∧
        Pixel.ofRecords (Pixel.toRecords ps ++ tail) = ps) ∧
    (∀ bs out : Bytes,
      Pixel.appendRecords (Pixel.ofRecords bs) out = out ++ bs.take (5 * (bs.length / 5))) ∧
    (∀ a b : Bytes, 5 ∣ a.length →
      Pixel.ofRecords (a ++ b) = Pixel.ofRecords a ++ Pixel.ofRecords b) ∧
    (∀ s : Snapshot, Snapshot.decode s.encode =
      if s.pixels.length = s.width.toNat * s.height.toNat then .ok s
      else .error (.snapshotSize s.pixels.length (s.width.toNat * s.height.toNat))) ∧
    ∀ (bs : Bytes) (s : Snapshot), Snapshot.decode bs = .ok s → s.encode = bs := by
  refine ⟨?_, ?_, ?_, Snapshot.decode_encode_eq, ?_⟩
  · intro ps out tail hl
    refine ⟨Pixel.appendRecords_eq ps out, ?_⟩
    rw [Pixel.ofRecords_toRecords_append, Pixel.ofRecords_of_length_lt hl, List.append_nil]
  · intro bs out
    rw [Pixel.appendRecords_eq, Pixel.toRecords_ofRecords]
  · intro a b h
    exact Pixel.ofRecords_append h b
  · intro bs s h
    exact Snapshot.encode_of_decode h

/-- Two pixels behind a byte and before three, a cut after one record of two, and a picture of two
cells. -/
theorem payloads_invert_two_pixels :
    let ps : List Pixel := [⟨0x0102, 0x0304, 7⟩, ⟨65535, 300, 255⟩]
    let first : Bytes := [0x02, 0x01, 0x04, 0x03, 7]
    let second : Bytes := [0xFF, 0xFF, 0x2C, 0x01, 255]
    let tail : Bytes := [9, 9, 9]
    let picture : Bytes := [2, 0, 1, 0, 29, 200]
    tail.length < 5 ∧ 5 ∣ first.length ∧ Snapshot.decode picture = .ok ⟨2, 1, [29, 200]⟩ ∧
      Pixel.appendRecords ps [1] = [1] ++ (first ++ second) ∧
      Pixel.ofRecords (first ++ second ++ tail) = ps ∧
      Pixel.ofRecords (first ++ (second ++ tail)) =
        Pixel.ofRecords first ++ Pixel.ofRecords (second ++ tail) ∧
      Snapshot.encode ⟨2, 1, [29, 200]⟩ = picture := by
  intro ps first second tail picture
  obtain ⟨hback, -, hcut, -, hpicture⟩ := payloads_invert
  have ht : tail.length < 5 := by decide
  have hf : 5 ∣ first.length := by decide
  have hp : Snapshot.decode picture = .ok ⟨2, 1, [29, 200]⟩ := rfl
  obtain ⟨hw, hr⟩ := hback ps [1] tail ht
  exact ⟨ht, hf, hp, hw, hr, hcut first (second ++ tail) hf, hpicture picture _ hp⟩

end SharedCanvas
