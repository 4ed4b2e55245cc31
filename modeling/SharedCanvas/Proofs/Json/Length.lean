import SharedCanvas.Proofs.Json.Written

namespace SharedCanvas
open Bytes (ofString ofDecimal)

namespace Json

theorem length_writeList (ps : List Bytes) :
    (writeList ps).length = 2 + (ps.map List.length).sum + (ps.length - 1) := by
  cases ps with
  | nil => rfl
  | cons p ps =>
    have h : (ps.flatMap (comma :: ·)).length = (ps.map List.length).sum + ps.length := by
      induction ps with
      | nil => rfl
      | cons q ps ih =>
        rw [List.flatMap_cons, List.length_append, ih, List.map_cons, List.sum_cons,
          List.length_cons, List.length_cons]
        omega
    rw [writeList, flatten_intersperse_comma]
    simp only [List.cons_append, List.length_cons, List.length_append, List.length_nil, h,
      List.map_cons, List.sum_cons]
    omega

end Json

theorem Pixel.length_toJson (p : Pixel) : 23 ≤ p.toJson.length ∧ p.toJson.length ≤ 33 := by
  have hx := Bytes.length_ofDecimal_pos p.x.toNat
  have hy := Bytes.length_ofDecimal_pos p.y.toNat
  have hc := Bytes.length_ofDecimal_pos p.color.toNat
  have hx' : (ofDecimal p.x.toNat).length ≤ 5 :=
    Bytes.length_ofDecimal_le (by decide) (Nat.lt_trans p.x.toNat_lt (by decide))
  have hy' : (ofDecimal p.y.toNat).length ≤ 5 :=
    Bytes.length_ofDecimal_le (by decide) (Nat.lt_trans p.y.toNat_lt (by decide))
  have hc' : (ofDecimal p.color.toNat).length ≤ 3 :=
    Bytes.length_ofDecimal_le (by decide) (Nat.lt_trans p.color.toNat_lt (by decide))
  have h : p.toJson.length = 5 + (ofDecimal p.x.toNat).length + 5 +
      (ofDecimal p.y.toNat).length + 9 + (ofDecimal p.color.toNat).length + 1 := by
    simp only [toJson, List.length_append]
    rfl
  omega

namespace Delta

theorem length_toJson (d : Delta) : d.toJson.length = 36 + (ofDecimal d.clients).length +
    (d.pixels.map fun p => p.toJson.length).sum + (d.pixels.length - 1) := by
  have h : d.toJson.length = 16 + (ofDecimal d.clients).length + 17 +
      (Json.writeList (d.pixels.map Pixel.toJson)).length + 1 := by
    simp only [toJson, List.length_append]
    rfl
  rw [h, Json.length_writeList, List.map_map, List.length_map]
  change _ + (2 + (d.pixels.map fun p => p.toJson.length).sum + _) + _ = _
  omega

theorem sum_length_toJson (ps : List Pixel) :
    23 * ps.length ≤ (ps.map fun p => p.toJson.length).sum ∧
      (ps.map fun p => p.toJson.length).sum ≤ 33 * ps.length := by
  induction ps with
  | nil => exact ⟨Nat.le_refl _, Nat.le_refl _⟩
  | cons p ps ih =>
    have hp := p.length_toJson
    simp only [List.map_cons, List.sum_cons, List.length_cons]
    omega

theorem le_length_toJson (d : Delta) : 36 + 24 * d.pixels.length ≤ d.toJson.length := by
  have hs := (sum_length_toJson d.pixels).1
  have hc := Bytes.length_ofDecimal_pos d.clients
  rw [length_toJson]
  omega

/-- A delta takes at most 34 bytes for every pixel. -/
theorem length_toJson_le {d : Delta} (h : d.clients ≤ maxWord64) :
    d.toJson.length ≤ 56 + 34 * d.pixels.length := by
  have hs := (sum_length_toJson d.pixels).2
  have hc : (ofDecimal d.clients).length ≤ 20 := Bytes.length_ofDecimal_le (by decide) (by
    have : maxWord64 < 10 ^ 20 := by decide
    omega)
  rw [length_toJson]
  omega

end Delta
end SharedCanvas
