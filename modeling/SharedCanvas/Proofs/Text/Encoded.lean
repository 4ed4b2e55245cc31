import SharedCanvas.Bytes
import Mathlib.Tactic.SplitIfs

namespace SharedCanvas.Bytes

theorem ofString_append (s t : String) : ofString (s ++ t) = ofString s ++ ofString t := by
  simp [ofString]

theorem ofString_ofList (cs : List Char) :
    ofString (String.ofList cs) = cs.flatMap String.utf8EncodeChar := by
  simp [ofString, List.utf8Encode]

theorem toString?_ofString (s : String) : toString? (ofString s) = some s := by
  have h : (⟨(ofString s).toArray⟩ : ByteArray) = s.toByteArray := rfl
  rw [toString?, h, String.fromUTF8?, dif_pos s.isValidUTF8]
  rfl

theorem ofString_inj {s t : String} : ofString s = ofString t ↔ s = t := by
  refine ⟨fun h => ?_, congrArg ofString⟩
  rw [← Option.some_inj, ← toString?_ofString, ← toString?_ofString, h]

/-- A byte of ASCII stands for itself: every byte of a longer character has its top bit set. -/
theorem toNat_eq_of_mem_utf8EncodeChar {c : Char} {b : UInt8} (h : b ∈ String.utf8EncodeChar c)
    (hb : b.toNat < 128) : c.toNat = b.toNat := by
  have hbyte : ∀ n, b = UInt8.ofNat n → n % 256 = b.toNat := by
    intro n hn
    rw [hn, UInt8.toNat_ofNat']
  have hhigh : ∀ n, 128 ≤ n % 256 → b ≠ UInt8.ofNat n := by
    intro n hn hc
    have := hbyte n hc
    omega
  rw [String.utf8EncodeChar] at h
  split_ifs at h <;> simp only [List.mem_cons, List.not_mem_nil, or_false] at h
  · have hc := hbyte _ h
    rw [Char.toNat_val] at *
    omega
  · rcases h with h | h <;> exact absurd h (hhigh _ (by omega))
  · rcases h with h | h | h <;> exact absurd h (hhigh _ (by omega))
  · rcases h with h | h | h | h <;> exact absurd h (hhigh _ (by omega))

end SharedCanvas.Bytes
