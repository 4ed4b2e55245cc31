import SharedCanvas.Canvas.Json
import SharedCanvas.Proofs.Text.Encoded
import Mathlib.Algebra.Ring.Nat

namespace SharedCanvas

namespace Bytes

theorem ofDecimal_of_lt {n : Nat} (h : n < 10) : ofDecimal n = [UInt8.ofNat (0x30 + n)] := by
  rw [ofDecimal, Nat.toDigits_of_lt_base h, List.map_singleton, Nat.toNat_digitChar_of_lt_ten h]

theorem ofDecimal_of_ge {n : Nat} (h : 10 ≤ n) :
    ofDecimal n = ofDecimal (n / 10) ++ [UInt8.ofNat (0x30 + n % 10)] := by
  have hm : n % 10 < 10 := Nat.mod_lt n (by decide)
  rw [ofDecimal, Nat.toDigits_of_base_le (by decide) h, List.map_append, List.map_singleton,
    Nat.toNat_digitChar_of_lt_ten hm, ofDecimal]

theorem length_ofDecimal_pos (n : Nat) : 0 < (ofDecimal n).length := by
  rw [ofDecimal, List.length_map]
  exact Nat.length_toDigits_pos

theorem length_ofDecimal_le {n k : Nat} (hk : 0 < k) (h : n < 10 ^ k) :
    (ofDecimal n).length ≤ k := by
  rw [ofDecimal, List.length_map]
  exact (Nat.length_toDigits_le_iff (by decide) hk).2 h

end Bytes

namespace Json
open Bytes (ofString ofDecimal)

theorem digit_facts : ∀ d < 10, isDigit (UInt8.ofNat (0x30 + d)) = true ∧
    digitValue (UInt8.ofNat (0x30 + d)) = d ∧ UInt8.ofNat (0x30 + d) ≠ minus := by decide

theorem isDigit_of_mem_ofDecimal {n : Nat} {b : UInt8} (h : b ∈ ofDecimal n) :
    isDigit b = true := by
  -- The last digit is split off; the others are those of `n / 10`.
  induction n using Nat.strongRecOn with
  | ind n ih =>
    by_cases hn : n < 10
    · rw [Bytes.ofDecimal_of_lt hn, List.mem_singleton] at h
      exact h ▸ (digit_facts n hn).1
    · rw [Bytes.ofDecimal_of_ge (Nat.le_of_not_lt hn), List.mem_append, List.mem_singleton] at h
      rcases h with h | h
      · exact ih (n / 10) (by omega) h
      · exact h ▸ (digit_facts (n % 10) (by omega)).1

theorem digitsValue_ofDecimal (n : Nat) : digitsValue ((ofDecimal n).map digitValue) = n := by
  induction n using Nat.strongRecOn with
  | ind n ih =>
    by_cases hn : n < 10
    · rw [Bytes.ofDecimal_of_lt hn, List.map_singleton, (digit_facts n hn).2.1]
      simp [digitsValue]
    · have hd := (digit_facts (n % 10) (by omega)).2.1
      have hq := ih (n / 10) (by omega)
      rw [Bytes.ofDecimal_of_ge (Nat.le_of_not_lt hn), List.map_append, List.map_singleton, hd]
      rw [digitsValue] at hq ⊢
      rw [List.foldl_append, hq, List.foldl_cons, List.foldl_nil]
      omega

theorem ofDecimal_head {n : Nat} (h : 0 < n) : ∃ c t, ofDecimal n = c :: t ∧ c ≠ 0x30 := by
  induction n using Nat.strongRecOn with
  | ind n ih =>
    by_cases hn : n < 10
    · refine ⟨_, [], Bytes.ofDecimal_of_lt hn, ?_⟩
      have hd : ∀ d < 10, 0 < d → UInt8.ofNat (0x30 + d) ≠ 0x30 := by decide
      exact hd n hn h
    · obtain ⟨c, t, ht, hc⟩ := ih (n / 10) (by omega) (by omega)
      refine ⟨c, t ++ [UInt8.ofNat (0x30 + n % 10)], ?_, hc⟩
      rw [Bytes.ofDecimal_of_ge (Nat.le_of_not_lt hn), ht, List.cons_append]

theorem ofDecimal_eq_cons (n : Nat) : ∃ c t, ofDecimal n = c :: t ∧ isDigit c = true := by
  cases h : ofDecimal n with
  | nil =>
    have := Bytes.length_ofDecimal_pos n
    simp [h] at this
  | cons c t => exact ⟨c, t, rfl, isDigit_of_mem_ofDecimal (n := n) (h ▸ List.mem_cons_self)⟩

theorem beq_eq_false_of_isDigit {b k : UInt8} (hb : isDigit b = true) (hk : isDigit k = false) :
    (b == k) = false := by
  rw [beq_eq_false_iff_ne]
  rintro rfl
  exact absurd hb (by rw [hk]; decide)

theorem isBlank_eq_false_of_isDigit {b : UInt8} (h : isDigit b = true) : isBlank b = false := by
  simp [isBlank, beq_eq_false_of_isDigit h, isDigit]

def continuesNumber (b : UInt8) : Bool := isDigit b || b == 0x2E || b == 0x65 || b == 0x45

/-- A number that stands before the text ends there. -/
def EndsNumber (s : Bytes) : Prop := ∀ b ∈ s.head?, continuesNumber b = false

theorem endsNumber_cons {b : UInt8} {s : Bytes} (h : continuesNumber b = false) :
    EndsNumber (b :: s) := by
  intro c hc
  rw [List.head?_cons, Option.mem_some_iff] at hc
  exact hc ▸ h

theorem EndsNumber.isDigit_eq_false {b : UInt8} {s : Bytes} (h : EndsNumber (b :: s)) :
    isDigit b = false := by
  have hb := h b rfl
  simp only [continuesNumber, Bool.or_eq_false_iff] at hb
  exact hb.1.1.1

theorem spanDigits_append {ds rest : Bytes} (hd : ∀ b ∈ ds, isDigit b = true)
    (hr : EndsNumber rest) : spanDigits (ds ++ rest) = (ds.map digitValue, rest) := by
  have h : rest.takeWhile isDigit = [] ∧ rest.dropWhile isDigit = rest := by
    cases rest with
    | nil => exact ⟨rfl, rfl⟩
    | cons b rest => simp [hr.isDigit_eq_false]
  rw [spanDigits, List.takeWhile_append_of_pos hd, List.dropWhile_append_of_pos hd, h.1, h.2,
    List.append_nil]

theorem readWhole_ofDecimal (n : Nat) {rest : Bytes} (hr : EndsNumber rest) :
    readWhole (ofDecimal n ++ rest) = .ok ((ofDecimal n).map digitValue, rest) := by
  rcases Nat.eq_zero_or_pos n with rfl | hn
  · cases rest with
    | nil => rfl
    | cons b rest =>
      have h0 : ofDecimal 0 = [0x30] := rfl
      rw [h0, List.singleton_append]
      simp only [readWhole, beq_self_eq_true, if_true, hr.isDigit_eq_false]
      rfl
  · obtain ⟨c, t, ht, hc⟩ := ofDecimal_head hn
    have hd : isDigit c = true := isDigit_of_mem_ofDecimal (ht ▸ List.mem_cons_self)
    have hs := spanDigits_append (fun b hb => isDigit_of_mem_ofDecimal (n := n) hb) hr
    rw [ht, List.cons_append] at hs ⊢
    simp only [readWhole, beq_eq_false_iff_ne.2 hc, hd, if_true, hs]
    rfl

theorem readNumeral_ofDecimal (n : Nat) {rest : Bytes} (hr : EndsNumber rest) :
    readNumeral (ofDecimal n ++ rest) =
      .ok (⟨false, (ofDecimal n).map digitValue, [], none⟩, rest) := by
  have hf : readFraction rest = .ok ([], rest) ∧ readExponent rest = .ok (none, rest) := by
    cases rest with
    | nil => exact ⟨rfl, rfl⟩
    | cons b rest =>
      have hb := hr b rfl
      simp only [continuesNumber, Bool.or_eq_false_iff] at hb
      simp [readFraction, readExponent, hb]
  have hu : readUnsigned false (ofDecimal n ++ rest) =
      .ok (⟨false, (ofDecimal n).map digitValue, [], none⟩, rest) := by
    simp only [readUnsigned, readWhole_ofDecimal n hr, hf.1, hf.2]
  obtain ⟨c, t, ht, hc⟩ := ofDecimal_eq_cons n
  rw [ht, List.cons_append] at hu ⊢
  rw [readNumeral, beq_eq_false_of_isDigit hc (k := minus) rfl]
  exact hu

theorem integer?_ofDecimal {n : Nat} (h : n ≤ maxWord64) :
    Numeral.integer? ⟨false, (ofDecimal n).map digitValue, [], none⟩ = .ok (some n) := by
  have hl : (ofDecimal n).length ≤ 20 := Bytes.length_ofDecimal_le (by decide) (by
    have : maxWord64 < 10 ^ 20 := by decide
    omega)
  have hw : Numeral.isWord ⟨false, (ofDecimal n).map digitValue, [], none⟩ = true := by
    simp [Numeral.isWord, Numeral.isPlain, Numeral.maxWordDigits, digitsValue_ofDecimal, hl, h]
  rw [Numeral.integer?, hw, digitsValue_ofDecimal]
  rfl

/-- The text is one way to write the value: the reader takes it off the front of any text in which
the value ends there. -/
structure Spells {α : Type} (reader : Reader α) (text : Bytes) (a : α) : Prop where
  starts : ∃ c t, text = c :: t ∧ isBlank c = false ∧ (c == closeList) = false
  reads : ∀ rest, EndsNumber rest → reader.run (text ++ rest) = .ok (a, rest)

theorem Spells.readWholeText_eq {α : Type} {reader : Reader α} {text : Bytes} {a : α}
    (h : Spells reader text a) : readWholeText reader text = .ok a := by
  have hr := h.reads [] (by simp [EndsNumber])
  rw [List.append_nil] at hr
  rw [readWholeText, hr]
  rfl

theorem skipBlanks_cons {c : UInt8} {s : Bytes} (h : isBlank c = false) :
    skipBlanks (c :: s) = c :: s := by
  rw [skipBlanks, List.dropWhile_cons, h]
  rfl

theorem spells_integer {n max : Nat} (hn : n ≤ max) (hm : max ≤ maxWord64) :
    Spells (integer max) (ofDecimal n) n := by
  obtain ⟨c, t, ht, hc⟩ := ofDecimal_eq_cons n
  have hb := isBlank_eq_false_of_isDigit hc
  refine ⟨⟨c, t, ht, hb, beq_eq_false_of_isDigit hc rfl⟩, ?_⟩
  intro rest hr
  have hnum := readNumeral_ofDecimal n hr
  have hi := integer?_ofDecimal (n := n) (Nat.le_trans hn hm)
  rw [ht, List.cons_append] at hnum ⊢
  rw [ht] at hi
  change readInteger max (c :: (t ++ rest)) = _
  simp only [readInteger, skipBlanks_cons hb, hc, Bool.or_true, if_true, hnum, hi, hn]

theorem Spells.map {α β : Type} {reader : Reader α} {text : Bytes} {a : α}
    (h : Spells reader text a) (f : α → β) : Spells (reader.map f) text (f a) := by
  refine ⟨h.starts, ?_⟩
  intro rest hr
  simp only [Reader.map, h.reads rest hr]

theorem spells_word (w : UInt16) : Spells word (ofDecimal w.toNat) w := by
  have hw : w.toNat ≤ maxWord16 := Nat.le_of_lt_succ w.toNat_lt
  have h := (spells_integer hw (by decide)).map UInt16.ofNat
  rwa [UInt16.ofNat_toNat] at h

theorem spells_byte (b : UInt8) : Spells byte (ofDecimal b.toNat) b := by
  have hb : b.toNat ≤ 255 := Nat.le_of_lt_succ b.toNat_lt
  have h := (spells_integer hb (by decide)).map UInt8.ofNat
  rwa [UInt8.ofNat_toNat] at h

theorem flatten_intersperse_comma (p : Bytes) (ps : List Bytes) :
    ((p :: ps).intersperse [comma]).flatten = p ++ ps.flatMap (comma :: ·) := by
  induction ps generalizing p with
  | nil => simp
  | cons q ps ih => simp [ih q]

theorem endsNumber_items (ps : List Bytes) (rest : Bytes) :
    EndsNumber (ps.flatMap (comma :: ·) ++ closeList :: rest) := by
  cases ps with
  | nil => exact endsNumber_cons (by decide)
  | cons p ps => exact endsNumber_cons (by decide)

section
variable {α : Type} {item : Reader α}

theorem Spells.nextItem_first {text : Bytes} {a : α} (h : Spells item text a) (rest : Bytes) :
    nextItem true (text ++ rest) = .ok (.item (text ++ rest)) := by
  obtain ⟨c, t, rfl, hb, hc⟩ := h.starts
  simp [nextItem, skipBlanks_cons hb, hc]

theorem Spells.nextItem_comma {text : Bytes} {a : α} (h : Spells item text a) (rest : Bytes) :
    nextItem false (comma :: (text ++ rest)) = .ok (.item (text ++ rest)) := by
  obtain ⟨c, t, rfl, hb, hc⟩ := h.starts
  have hs : skipBlanks (comma :: c :: (t ++ rest)) = comma :: c :: (t ++ rest) :=
    skipBlanks_cons (by decide)
  have hcc : (comma == closeList) = false := by decide
  simp only [List.cons_append, nextItem, hs, hcc, skipBlanks_cons hb, hc, beq_self_eq_true,
    if_true]
  rfl

theorem readItems_item {seen : List α} {first : Bool} {s t r : Bytes} {a : α}
    (hn : nextItem first s = .ok (.item t)) (hi : item.run t = .ok (a, r)) :
    readItems item seen first s = readItems item (a :: seen) false r := by
  simp only [readItems_eq item seen, hn, hi]

theorem readItems_closed {seen : List α} {first : Bool} {s r : Bytes}
    (hn : nextItem first s = .ok (.closed r)) :
    readItems item seen first s = .ok (seen.reverse, r) := by
  simp only [readItems_eq item seen, hn]

variable {write : α → Bytes}

theorem readItems_flatMap {as : List α} (h : ∀ a ∈ as, Spells item (write a) a)
    (seen : List α) (rest : Bytes) :
    readItems item seen false ((as.map write).flatMap (comma :: ·) ++ closeList :: rest) =
      .ok (seen.reverse ++ as, rest) := by
  induction as generalizing seen with
  | nil =>
    have hs : skipBlanks (closeList :: rest) = closeList :: rest := skipBlanks_cons (by decide)
    rw [List.append_nil]
    exact readItems_closed (by simp [nextItem, hs])
  | cons a as ih =>
    -- The comma that comes next, or the end of the list, ends the item.
    have ha := h a List.mem_cons_self
    rw [List.map_cons, List.flatMap_cons, List.cons_append, List.cons_append, List.append_assoc,
      readItems_item (ha.nextItem_comma _) (ha.reads _ (endsNumber_items _ rest)),
      ih fun b hb => h b (List.mem_cons_of_mem a hb)]
    simp

theorem spells_list {as : List α} (h : ∀ a ∈ as, Spells item (write a) a) :
    Spells (list item) (writeList (as.map write)) as := by
  refine ⟨⟨openList, _, rfl, by decide, by decide⟩, ?_⟩
  intro rest _
  change readList item (writeList (as.map write) ++ rest) = _
  have hs : ∀ t : Bytes, skipBlanks (openList :: t) = openList :: t :=
    fun t => skipBlanks_cons (by decide)
  cases as with
  | nil =>
    have hc : skipBlanks (closeList :: rest) = closeList :: rest := skipBlanks_cons (by decide)
    simp only [writeList, List.map_nil, List.intersperse_nil, List.flatten_nil, List.cons_append,
      List.nil_append, readList, hs, beq_self_eq_true, if_true]
    exact readItems_closed (by simp [nextItem, hc])
  | cons a as =>
    have ha := h a List.mem_cons_self
    rw [List.map_cons, writeList, flatten_intersperse_comma]
    simp only [List.cons_append, List.append_assoc, List.nil_append, readList, hs,
      beq_self_eq_true, if_true]
    rw [readItems_item (ha.nextItem_first _) (ha.reads _ (endsNumber_items _ rest)),
      readItems_flatMap fun b hb => h b (List.mem_cons_of_mem a hb)]
    rfl

end

def isPlain (b : UInt8) : Bool := !(b == quoteMark) && !(b == backslash) && !decide (b < 0x20)

theorem readString_append {name : Bytes} (h : ∀ b ∈ name, isPlain b = true) (seen rest : Bytes) :
    readString seen (name ++ rest) = readString (name.reverse ++ seen) rest := by
  induction name generalizing seen with
  | nil => rfl
  | cons b name ih =>
    have hb := h b List.mem_cons_self
    simp only [isPlain, Bool.and_eq_true, Bool.not_eq_true', decide_eq_false_iff_not] at hb
    rw [List.cons_append, readString]
    simp only [hb.1.1, hb.1.2, hb.2, if_false, Bool.false_eq_true]
    rw [ih fun c hc => h c (List.mem_cons_of_mem b hc)]
    simp

theorem readString_close (seen rest : Bytes) :
    readString seen (quoteMark :: rest) = readText seen.reverse rest := by
  rw [readString, beq_self_eq_true, if_pos rfl]

theorem readString_plain {name : Bytes} (h : ∀ b ∈ name, isPlain b = true) (seen rest : Bytes) :
    readString seen (name ++ quoteMark :: rest) = readText (seen.reverse ++ name) rest := by
  rw [readString_append h, readString_close, List.reverse_append, List.reverse_reverse]

def member (first : Bool) (name : String) (value : Bytes) : Bytes :=
  (if first then [] else [comma]) ++ quoteMark :: (ofString name ++ quoteMark :: colon :: value)

theorem nextKey_member {name : String} (h : (ofString name).all isPlain = true) (first : Bool)
    (value rest : Bytes) : nextKey first (member first name value ++ rest) =
      .ok (.key (ofString name) (colon :: (value ++ rest))) := by
  have hr : readKey (ofString name ++ quoteMark :: colon :: (value ++ rest)) =
      .ok (.key (ofString name) (colon :: (value ++ rest))) := by
    rw [readKey, readString_plain (List.all_eq_true.1 h)]
    simp [readText, Bytes.toString?_ofString]
  have hq : ∀ t : Bytes, skipBlanks (quoteMark :: t) = quoteMark :: t :=
    fun t => skipBlanks_cons (by decide)
  have hc : ∀ t : Bytes, skipBlanks (comma :: t) = comma :: t :=
    fun t => skipBlanks_cons (by decide)
  have hqc : (quoteMark == closeObject) = false := by decide
  have hcc : (comma == closeObject) = false := by decide
  cases first with
  | true =>
    simp only [member, if_true, List.nil_append, List.cons_append, List.append_assoc, nextKey, hq,
      hqc, beq_self_eq_true, hr]
    rfl
  | false =>
    simp only [member, Bool.false_eq_true, if_false, List.cons_append, List.nil_append,
      List.append_assoc, nextKey, hc, hcc, hq, beq_self_eq_true, if_true, hr]

section
variable {σ α : Type} {fields : List (Field σ)}

theorem readMembers_key {draft draft' : σ} {first : Bool} {s name t u r : Bytes} {field : Field σ}
    (hk : nextKey first s = .ok (.key name t))
    (hf : (fields.find? fun f => f.name == name) = some field)
    (hg : field.isGiven draft = false) (hc : expect colon t = .ok u)
    (hv : (field.value draft).run u = .ok (draft', r)) :
    readMembers fields draft first s = readMembers fields draft' false r := by
  rw [readMembers_eq]
  simp [hk, hf, hg, hc, Except.bind, hv]

theorem readMembers_member {draft draft' : σ} {first : Bool} {name : String} {value rest : Bytes}
    {field : Field σ} (h : (ofString name).all isPlain = true)
    (hf : (fields.find? fun f => f.name == ofString name) = some field)
    (hg : field.isGiven draft = false) (hv : Spells (field.value draft) value draft')
    (hr : EndsNumber rest) :
    readMembers fields draft first (member first name value ++ rest) =
      readMembers fields draft' false rest := by
  have hc : expect colon (colon :: (value ++ rest)) = .ok (value ++ rest) := by
    have hs : skipBlanks (colon :: (value ++ rest)) = colon :: (value ++ rest) :=
      skipBlanks_cons (by decide)
    simp [expect, hs]
  exact readMembers_key (nextKey_member h first value rest) hf hg hc (hv.reads rest hr)

theorem endsNumber_member (name : String) (value rest : Bytes) :
    EndsNumber (member false name value ++ rest) := endsNumber_cons (by decide)

theorem readMembers_close (draft : σ) (rest : Bytes) :
    readMembers fields draft false (closeObject :: rest) = .ok (draft, rest) := by
  have hs : skipBlanks (closeObject :: rest) = closeObject :: rest := skipBlanks_cons (by decide)
  have hk : nextKey false (closeObject :: rest) = .ok (.closed rest) := by simp [nextKey, hs]
  simp only [readMembers_eq fields draft, hk]

theorem Shape.spells {shape : Shape σ α} {text : Bytes} {d : σ} {a : α}
    (hm : ∀ rest, readMembers shape.fields shape.start true (text ++ rest) = .ok (d, rest))
    (hf : shape.finish d = some a) : Spells shape.reader (openObject :: text) a := by
  refine ⟨⟨openObject, text, rfl, by decide, by decide⟩, ?_⟩
  intro rest _
  have hs : skipBlanks (openObject :: (text ++ rest)) = openObject :: (text ++ rest) :=
    skipBlanks_cons (by decide)
  change shape.read (openObject :: (text ++ rest)) = _
  simp [Shape.read, hs, hm rest, Shape.close, hf]

end

end Json

open Json Bytes

theorem Pixel.spells_toJson (p : Pixel) : Spells Pixel.shape.reader p.toJson p := by
  have ht : p.toJson = openObject :: (member true "x" (ofDecimal p.x.toNat) ++
      (member false "y" (ofDecimal p.y.toNat) ++
        (member false "color" (ofDecimal p.color.toNat) ++ [closeObject]))) := by
    simp only [Pixel.toJson, member, List.append_assoc]
    rfl
  rw [ht]
  refine Shape.spells (d := ⟨some p.x, some p.y, some p.color⟩) ?_ rfl
  intro rest
  simp only [List.append_assoc, List.singleton_append]
  rw [readMembers_member (by decide) rfl rfl ((spells_word p.x).map _) (endsNumber_member _ _ _),
    readMembers_member (by decide) rfl rfl ((spells_word p.y).map _) (endsNumber_member _ _ _),
    readMembers_member (by decide) rfl rfl ((spells_byte p.color).map _)
      (endsNumber_cons (by decide))]
  exact readMembers_close _ rest

theorem Delta.spells_toJson {d : Delta} (h : d.clients ≤ maxWord64) :
    Spells Delta.shape.reader d.toJson d := by
  have ht : d.toJson = openObject :: (member true "client_count" (ofDecimal d.clients) ++
      (member false "updated_pixel" (writeList (d.pixels.map Pixel.toJson)) ++ [closeObject])) := by
    simp only [Delta.toJson, member, List.append_assoc]
    rfl
  rw [ht]
  refine Shape.spells (d := ⟨some d.clients, some d.pixels⟩) ?_ rfl
  intro rest
  have hp : Spells (list Pixel.shape.reader) (writeList (d.pixels.map Pixel.toJson)) d.pixels :=
    spells_list fun p _ => p.spells_toJson
  simp only [List.append_assoc, List.singleton_append]
  rw [readMembers_member (by decide) rfl rfl ((spells_integer h (Nat.le_refl _)).map _)
      (endsNumber_member _ _ _),
    readMembers_member (by decide) rfl rfl (hp.map _) (endsNumber_cons (by decide))]
  exact readMembers_close _ rest

theorem Delta.ofJson_toJson {d : Delta} (h : d.clients ≤ maxWord64) :
    Delta.ofJson d.toJson = .ok d :=
  (Delta.spells_toJson h).readWholeText_eq

theorem Snapshot.spells_toJson (s : Snapshot) : Spells Snapshot.shape.reader s.toJson s := by
  have ht : s.toJson = openObject :: (member true "width" (ofDecimal s.width.toNat) ++
      (member false "height" (ofDecimal s.height.toNat) ++
        (member false "pixels" (writeList (s.pixels.map fun c => ofDecimal c.toNat)) ++
          [closeObject]))) := by
    simp only [Snapshot.toJson, member, List.append_assoc]
    rfl
  rw [ht]
  refine Shape.spells (d := ⟨some s.width, some s.height, some s.pixels⟩) ?_ rfl
  intro rest
  have hp : Spells (list byte) (writeList (s.pixels.map fun c => ofDecimal c.toNat)) s.pixels :=
    spells_list fun c _ => spells_byte c
  simp only [List.append_assoc, List.singleton_append]
  rw [readMembers_member (by decide) rfl rfl ((spells_word s.width).map _)
      (endsNumber_member _ _ _),
    readMembers_member (by decide) rfl rfl ((spells_word s.height).map _)
      (endsNumber_member _ _ _),
    readMembers_member (by decide) rfl rfl (hp.map _) (endsNumber_cons (by decide))]
  exact readMembers_close _ rest

theorem Snapshot.ofJson_toJson (s : Snapshot) : Snapshot.ofJson s.toJson = .ok s :=
  s.spells_toJson.readWholeText_eq

theorem Snapshot.toJson_injective : Function.Injective Snapshot.toJson := fun s t h =>
  Except.ok.inj (s.ofJson_toJson.symm.trans (h ▸ t.ofJson_toJson))

end SharedCanvas
