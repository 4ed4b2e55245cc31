import SharedCanvas.Proofs.Json.Skipped
import Mathlib.Data.List.DropRight
import Mathlib.Data.List.Forall2

namespace SharedCanvas.Json
open Bytes (ofString)

def shortEscapes : List (Char × UInt8) := "\"\\/\x08\x0c\n\r\t".toList.zip escapeLetters

/-- A character as it can be written in a key. A character by number is one unit or a pair of
surrogates. -/
inductive CharText : Char → Bytes → Prop
  | plain {c : Char} (hc : 0x20 ≤ c.toNat) (hq : c ≠ '"') (hs : c ≠ '\\') :
      CharText c (String.utf8EncodeChar c)
  | short {c : Char} {b : UInt8} (h : (c, b) ∈ shortEscapes) : CharText c [backslash, b]
  | unit {c : Char} {ds : Bytes} (h : HexUnit c.toNat ds) :
      CharText c (backslash :: letterU :: ds)
  | pair {c : Char} {hi lo : Nat} {ds es : Bytes} (hhi : 0xD800 ≤ hi ∧ hi < 0xDC00)
      (hlo : 0xDC00 ≤ lo ∧ lo < 0xE000)
      (hc : c.toNat = 0x10000 + (hi - 0xD800) * 0x400 + (lo - 0xDC00)) (hd : HexUnit hi ds)
      (he : HexUnit lo es) :
      CharText c (backslash :: letterU :: (ds ++ backslash :: letterU :: es))

/-- What stands between the marks of a key. -/
inductive KeyText : List Char → Bytes → Prop
  | nil : KeyText [] []
  | cons {c : Char} {cs : List Char} {t u : Bytes} (hc : CharText c t) (h : KeyText cs u) :
      KeyText (c :: cs) (t ++ u)

abbrev FieldTexts := List (String × (Bytes → Prop))

/-- A value under a key, and the field that it gives, if the key is a field's. -/
inductive ValueText (fields : FieldTexts) : String → Bytes → List String → Prop
  | field {name : String} {texts : Bytes → Prop} {v : Bytes} (hn : (name, texts) ∈ fields)
      (hv : texts v) : ValueText fields name v [name]
  | other {name : String} {v : Bytes} (hn : ∀ f ∈ fields, f.1 ≠ name) (hv : Phrase .value v) :
      ValueText fields name v []

/-- A member of an object and the field that it gives. -/
inductive MemberText (fields : FieldTexts) : List String → Bytes → Prop
  | mk {name : String} {given : List String} {a k b c v d : Bytes} (ha : IsGap a)
      (hk : KeyText name.toList k) (hb : IsGap b) (hc : IsGap c)
      (hv : ValueText fields name v given) (hd : IsGap d) : MemberText fields given
        (a ++ quoteMark :: (k ++ quoteMark :: (b ++ colon :: (c ++ (v ++ d)))))

/-- The members of an object and the fields that they give, in the order in which they stand. -/
inductive MembersText (fields : FieldTexts) : List String → Bytes → Prop
  | last {given : List String} {t : Bytes} (h : MemberText fields given t) :
      MembersText fields given t
  | cons {given given' : List String} {t u : Bytes} (h : MemberText fields given t)
      (hu : MembersText fields given' u) : MembersText fields (given ++ given') (t ++ comma :: u)

/-- The values of the fields, one after another. -/
inductive ValuesText : FieldTexts → Bytes → Prop
  | last {f : String × (Bytes → Prop)} {a v b : Bytes} (ha : IsGap a) (hv : f.2 v)
      (hb : IsGap b) : ValuesText [f] (a ++ (v ++ b))
  | cons {f : String × (Bytes → Prop)} {fields : FieldTexts} {a v b t : Bytes} (ha : IsGap a)
      (hv : f.2 v) (hb : IsGap b) (ht : ValuesText fields t) :
      ValuesText (f :: fields) (a ++ (v ++ (b ++ comma :: t)))

/-- The text is a record with these fields, each of which is given once. -/
inductive RecordText (fields : FieldTexts) : Bytes → Prop
  | object {given : List String} {t : Bytes} (h : MembersText fields given t)
      (hg : given.Perm (fields.map Prod.fst)) :
      RecordText fields (openObject :: (t ++ [closeObject]))
  | list {t : Bytes} (h : ValuesText fields t) : RecordText fields (openList :: (t ++ [closeList]))

theorem HexUnit.readUnit_eq {n : Nat} {ds : Bytes} (h : HexUnit n ds) (s : Bytes) :
    readUnit (ds ++ s) = .ok (n, s) := by
  obtain ⟨a, b, c, d, rfl, hu⟩ := h.exists_eq
  simp [readUnit, hu]

theorem readString_escape {s b r : Bytes} (h : readEscape s = .ok (b, r)) (seen : Bytes) :
    readString seen (backslash :: s) = readString (b.reverse ++ seen) r := by
  rw [readString]
  have hq : (backslash == quoteMark) = false := by decide
  simp only [hq, Bool.false_eq_true, if_false, beq_self_eq_true, if_true]
  split <;> simp_all

theorem readEscape_unit {s r b : Bytes} (h : readUnicode s = .ok (b, r)) :
    readEscape (letterU :: s) = .ok (b, r) := by
  have hu : simpleEscape? letterU = none := by decide
  simp only [readEscape, hu, beq_self_eq_true, if_true, h]

theorem not_surrogate (c : Char) : isLeading c.toNat = false ∧ isTrailing c.toNat = false := by
  have hv : c.toNat < 0xD800 ∨ 0xDFFF < c.toNat ∧ c.toNat < 0x110000 := c.valid
  simp only [isLeading, isTrailing, Bool.and_eq_false_iff, decide_eq_false_iff_not]
  omega

theorem readUnicode_unit {c : Char} {ds : Bytes} (h : HexUnit c.toNat ds) (s : Bytes) :
    readUnicode (ds ++ s) = .ok (String.utf8EncodeChar c, s) := by
  simp only [readUnicode, h.readUnit_eq, not_surrogate c, Bool.false_eq_true, if_false,
    Char.ofNat_toNat]

theorem readUnicode_pair {c : Char} {hi lo : Nat} {ds es : Bytes} (hhi : 0xD800 ≤ hi ∧ hi < 0xDC00)
    (hlo : 0xDC00 ≤ lo ∧ lo < 0xE000)
    (hc : c.toNat = 0x10000 + (hi - 0xD800) * 0x400 + (lo - 0xDC00)) (hd : HexUnit hi ds)
    (he : HexUnit lo es) (s : Bytes) :
    readUnicode (ds ++ backslash :: letterU :: (es ++ s)) = .ok (String.utf8EncodeChar c, s) := by
  have hlead : isLeading hi = true ∧ isTrailing hi = false := by
    simp only [isLeading, isTrailing, Bool.and_eq_true, Bool.and_eq_false_iff, decide_eq_true_iff,
      decide_eq_false_iff_not]
    omega
  have htrail : isTrailing lo = true := by
    simp only [isTrailing, Bool.and_eq_true, decide_eq_true_iff]
    omega
  have hj : joinSurrogates hi lo = c := by
    have hn : (hi - 0xD800) * 1024 + (lo - 0xDC00) + 0x10000 = c.toNat := by omega
    rw [joinSurrogates, hn, Char.ofNat_toNat]
  simp [readUnicode, hd.readUnit_eq, he.readUnit_eq, hlead, htrail, hj]

theorem CharText.readString_eq {c : Char} {t : Bytes} (h : CharText c t) (seen s : Bytes) :
    readString seen (t ++ s) = readString ((String.utf8EncodeChar c).reverse ++ seen) s := by
  cases h with
  | plain hc hq hs =>
    refine readString_append ?_ seen s
    intro b hb
    -- A byte that is not plain is one of ASCII, and so is the character that holds it.
    have hn : b.toNat < 128 → c.toNat = b.toNat := Bytes.toNat_eq_of_mem_utf8EncodeChar hb
    simp only [isPlain, Bool.and_eq_true, Bool.not_eq_true', beq_eq_false_iff_ne,
      decide_eq_false_iff_not]
    refine ⟨⟨?_, ?_⟩, ?_⟩
    · rintro rfl
      exact hq (Char.toNat_inj.1 (hn (by decide)))
    · rintro rfl
      exact hs (Char.toNat_inj.1 (hn (by decide)))
    · intro hlt
      have hlt : b.toNat < 32 := UInt8.lt_iff_toNat_lt.1 hlt
      have := hn (by omega)
      omega
  | @short b h =>
    have he : ∀ e ∈ shortEscapes, simpleEscape? e.2 = some (UInt8.ofNat e.1.toNat) ∧
        String.utf8EncodeChar e.1 = [UInt8.ofNat e.1.toNat] := by decide
    obtain ⟨hb, hc⟩ := he _ h
    have hr : readEscape (b :: s) = .ok ([UInt8.ofNat c.toNat], s) := by simp [readEscape, hb]
    exact hc ▸ readString_escape hr seen
  | unit h => exact readString_escape (readEscape_unit (readUnicode_unit h s)) seen
  | pair hhi hlo hc hd he =>
    have hr := readEscape_unit (readUnicode_pair hhi hlo hc hd he s)
    simp only [List.cons_append, List.append_assoc]
    exact readString_escape hr seen

theorem keyText_plain {cs : List Char}
    (h : cs.all (fun c => 0x20 ≤ c.toNat && c != '"' && c != '\\') = true) :
    KeyText cs (cs.flatMap String.utf8EncodeChar) := by
  induction cs with
  | nil => exact .nil
  | cons c cs ih =>
    simp only [List.all_cons, Bool.and_eq_true, decide_eq_true_eq, bne_iff_ne] at h
    exact .cons (.plain h.1.1.1 h.1.1.2 h.1.2) (ih h.2)

theorem KeyText.readString_eq {cs : List Char} {t : Bytes} (h : KeyText cs t) (seen s : Bytes) :
    readString seen (t ++ s) =
      readString ((cs.flatMap String.utf8EncodeChar).reverse ++ seen) s := by
  induction h generalizing seen with
  | nil => rfl
  | cons hc _ ih => rw [List.append_assoc, hc.readString_eq, ih]; simp

theorem KeyText.readKey_eq {name : String} {k : Bytes} (h : KeyText name.toList k) (s : Bytes) :
    readKey (k ++ quoteMark :: s) = .ok (.key (ofString name) s) := by
  have hn : name.toList.flatMap String.utf8EncodeChar = ofString name := by
    rw [← Bytes.ofString_ofList, String.ofList_toList]
  rw [readKey, h.readString_eq, readString_close, hn]
  simp [readText, Bytes.toString?_ofString]

section
variable {first : Bool} {g s t rest : Bytes} {c : UInt8}

theorem nextItem_gap (hg : IsGap g) (s : Bytes) : nextItem first (g ++ s) = nextItem first s := by
  rw [nextItem, nextItem, hg.skipBlanks_append]

theorem nextKey_gap (hg : IsGap g) (s : Bytes) : nextKey first (g ++ s) = nextKey first s := by
  rw [nextKey, nextKey, hg.skipBlanks_append]

theorem expect_gap (hg : IsGap g) (hc : isBlank c = false) (s : Bytes) :
    expect c (g ++ c :: s) = .ok s := by
  simp [expect, hg.skipBlanks_append, skipBlanks_cons hc]

theorem nextItem_comma (h : nextItem true s = .ok (.item t)) (hg : IsGap g) :
    nextItem false (g ++ comma :: s) = .ok (.item t) := by
  have hc : skipBlanks (comma :: s) = comma :: s := skipBlanks_cons (by decide)
  have hcc : (comma == closeList) = false := by decide
  rw [nextItem_gap hg]
  simp only [nextItem, hc, hcc, Bool.false_eq_true, if_false, beq_self_eq_true, if_true] at h ⊢
  split at h
  · simp at h
  · split at h <;> simp_all

theorem nextKey_comma {name : Bytes} (h : nextKey true s = .ok (.key name t)) (hg : IsGap g) :
    nextKey false (g ++ comma :: s) = .ok (.key name t) := by
  have hc : skipBlanks (comma :: s) = comma :: s := skipBlanks_cons (by decide)
  have hcc : (comma == closeObject) = false := by decide
  rw [nextKey_gap hg]
  simp only [nextKey, hc, hcc, Bool.false_eq_true, if_false, beq_self_eq_true, if_true] at h ⊢
  split at h
  · simp at h
  · split at h <;> simp_all

theorem skipValue_gap (hg : IsGap g) (s : Bytes) : skipValue (g ++ s) = skipValue s :=
  skipFrom_gap (fun _ => value_blank []) hg s

end

def Reader.IgnoresBlanks {α : Type} (reader : Reader α) : Prop :=
  ∀ s, reader.run (skipBlanks s) = reader.run s

theorem skipBlanks_skipBlanks (s : Bytes) : skipBlanks (skipBlanks s) = skipBlanks s :=
  List.dropWhile_idempotent isBlank s

section
variable {α β σ : Type} {reader : Reader α}

theorem Reader.IgnoresBlanks.gap (h : reader.IgnoresBlanks) {g : Bytes} (hg : IsGap g) (s : Bytes) :
    reader.run (g ++ s) = reader.run s := by
  rw [← h, hg.skipBlanks_append, h]

theorem integer_ignoresBlanks (max : Nat) : (integer max).IgnoresBlanks := by
  intro s
  change readInteger max (skipBlanks s) = readInteger max s
  rw [readInteger, readInteger, skipBlanks_skipBlanks]

theorem Reader.IgnoresBlanks.map (h : reader.IgnoresBlanks) (f : α → β) :
    (reader.map f).IgnoresBlanks := by
  intro s
  simp only [Reader.map, h s]

theorem Shape.ignoresBlanks (shape : Shape σ α) : shape.reader.IgnoresBlanks := by
  intro s
  change shape.read (skipBlanks s) = shape.read s
  rw [Shape.read, Shape.read, skipBlanks_skipBlanks]

end

/-- The field is read into the drafts, of which each is known by the names of the fields that it has
been given. -/
structure Field.Fills {σ : Type} (f : Field σ) (draft : List String → σ)
    (text : String × (Bytes → Prop)) : Prop where
  name : f.name = ofString text.1
  isGiven : ∀ seen, text.1 ∉ seen → f.isGiven (draft seen) = false
  ignoresBlanks : ∀ d, (f.value d).IgnoresBlanks
  spells : ∀ seen v, text.2 v → Spells (f.value (draft seen)) v (draft (text.1 :: seen))

/-- The shape is that of a record with these fields. -/
structure Shape.Describes {σ α : Type} (shape : Shape σ α) (fields : FieldTexts)
    (draft : List String → σ) (a : α) : Prop where
  start : shape.start = draft []
  nodup : (fields.map Prod.fst).Nodup
  fills : List.Forall₂ (fun f text => f.Fills draft text) shape.fields fields
  finish : ∀ seen, (∀ f ∈ fields, f.1 ∈ seen) → shape.finish (draft seen) = some a

section
variable {σ α : Type} {fs : List (Field σ)} {fields : FieldTexts} {draft : List String → σ}
  {t s rest : Bytes} {first : Bool} {seen given : List String}

theorem find?_of_mem (h : List.Forall₂ (fun f text => f.Fills draft text) fs fields)
    (hn : (fields.map Prod.fst).Nodup) {text : String × (Bytes → Prop)} (ht : text ∈ fields) :
    ∃ f, (fs.find? fun f => f.name == ofString text.1) = some f ∧ f.Fills draft text := by
  induction h with
  | nil => simp at ht
  | @cons f text' fs fields hf _ ih =>
    rw [List.map_cons, List.nodup_cons] at hn
    rcases List.mem_cons.1 ht with rfl | ht
    · exact ⟨f, List.find?_cons_of_pos (by simp [hf.name]), hf⟩
    · obtain ⟨f', hf', hfill⟩ := ih hn.2 ht
      refine ⟨f', ?_, hfill⟩
      rw [List.find?_cons_of_neg, hf']
      rw [beq_iff_eq, hf.name, Bytes.ofString_inj]
      rintro he
      exact hn.1 (he ▸ List.mem_map_of_mem ht)

theorem find?_eq_none (h : List.Forall₂ (fun f text => f.Fills draft text) fs fields)
    {name : String} (hn : ∀ f ∈ fields, f.1 ≠ name) :
    (fs.find? fun f => f.name == ofString name) = none := by
  induction h with
  | nil => rfl
  | cons hf _ ih =>
    rw [List.forall_mem_cons] at hn
    rw [List.find?_cons_of_neg, ih hn.2]
    rw [beq_iff_eq, hf.name, Bytes.ofString_inj]
    exact hn.1

theorem readMembers_other {d : σ} {name u r : Bytes} (hk : nextKey first s = .ok (.key name t))
    (hf : (fs.find? fun f => f.name == name) = none) (hc : expect colon t = .ok u)
    (hv : skipValue u = .ok r) : readMembers fs d first s = readMembers fs d false r := by
  rw [readMembers_eq]
  simp only [hk, hf, hc, Except.bind, hv]

theorem nextKey_memberText {name : String} {a k t : Bytes} (ha : IsGap a)
    (hk : KeyText name.toList k) :
    nextKey true (a ++ quoteMark :: (k ++ quoteMark :: t)) = .ok (.key (ofString name) t) := by
  have hq : ∀ s : Bytes, skipBlanks (quoteMark :: s) = quoteMark :: s :=
    fun s => skipBlanks_cons (by decide)
  have hc : (quoteMark == closeObject) = false := by decide
  rw [nextKey_gap ha]
  simp only [nextKey, hq, hc, Bool.false_eq_true, if_false, if_true, beq_self_eq_true,
    hk.readKey_eq]

theorem MemberText.exists_nextKey (h : MemberText fields given t) (rest : Bytes) :
    ∃ name u, nextKey true (t ++ rest) = .ok (.key name u) := by
  cases h with
  | mk ha hk =>
    simp only [List.append_assoc, List.cons_append]
    exact ⟨_, _, nextKey_memberText ha hk⟩

theorem MembersText.exists_nextKey (h : MembersText fields given t) (rest : Bytes) :
    ∃ name u, nextKey true (t ++ rest) = .ok (.key name u) := by
  cases h with
  | last h => exact h.exists_nextKey rest
  | cons h =>
    rw [List.append_assoc]
    exact h.exists_nextKey _

theorem MemberText.readMembers_eq (h : MemberText fields given t)
    (hfs : List.Forall₂ (fun f text => f.Fills draft text) fs fields)
    (hn : (fields.map Prod.fst).Nodup) (hg : ∀ n ∈ given, n ∉ seen)
    (hs : nextKey first s = nextKey true (t ++ rest)) (hr : EndsNumber rest) :
    ∃ d, IsGap d ∧ readMembers fs (draft seen) first s =
      readMembers fs (draft (given ++ seen)) false (d ++ rest) := by
  cases h with
  | @mk name given a k b c v d ha hk hb hc hv hd =>
    refine ⟨d, hd, ?_⟩
    simp only [List.append_assoc, List.cons_append, nextKey_memberText ha hk] at hs
    have hcolon := expect_gap hb (c := colon) (by decide) (c ++ (v ++ (d ++ rest)))
    have hrest := endsNumber_gap_append hd hr
    cases hv with
    | field hm hv =>
      obtain ⟨f, hf, hfill⟩ := find?_of_mem hfs hn hm
      have hrun : (f.value (draft seen)).run (c ++ (v ++ (d ++ rest))) =
          .ok (draft (name :: seen), d ++ rest) := by
        rw [(hfill.ignoresBlanks _).gap hc]
        exact (hfill.spells seen v hv).reads _ hrest
      exact readMembers_key hs hf (hfill.isGiven seen (hg name List.mem_cons_self)) hcolon hrun
    | other hm hv =>
      refine readMembers_other hs (find?_eq_none hfs hm) hcolon ?_
      rw [skipValue_gap hc]
      exact hv.skipValue_eq hrest

theorem readMembers_gap_close (d : σ) {g : Bytes} (hg : IsGap g) (rest : Bytes) :
    readMembers fs d false (g ++ closeObject :: rest) = .ok (d, rest) := by
  have hs : skipBlanks (closeObject :: rest) = closeObject :: rest := skipBlanks_cons (by decide)
  have hk : nextKey false (closeObject :: rest) = .ok (.closed rest) := by simp [nextKey, hs]
  simp only [readMembers_eq fs d, nextKey_gap hg, hk]

/-- The members are read one after another. What is entered in the end is what they give and what
had been entered before. -/
theorem MembersText.readMembers_eq (h : MembersText fields given t)
    (hfs : List.Forall₂ (fun f text => f.Fills draft text) fs fields)
    (hn : (fields.map Prod.fst).Nodup) (hg : (given ++ seen).Nodup) (rest : Bytes)
    (hs : nextKey first s = nextKey true (t ++ closeObject :: rest)) :
    ∃ all, (∀ n ∈ given ++ seen, n ∈ all) ∧
      readMembers fs (draft seen) first s = .ok (draft all, rest) := by
  induction h generalizing first s seen with
  | last h =>
    have hd := (List.nodup_append.1 hg).2.2
    obtain ⟨d, hd, hm⟩ := h.readMembers_eq hfs hn (fun n hn hs => hd n hn n hs rfl) hs
      (endsNumber_cons (by decide))
    exact ⟨_, fun n hn => hn, hm.trans (readMembers_gap_close _ hd rest)⟩
  | @cons given given' t u h hu ih =>
    have hp : (given' ++ (given ++ seen)).Perm (given ++ given' ++ seen) := by
      rw [← List.append_assoc]
      exact List.perm_append_comm.append_right seen
    have hd := (List.nodup_append.1 hg).2.2
    rw [List.append_assoc, List.cons_append] at hs
    obtain ⟨d, hd, hm⟩ := h.readMembers_eq hfs hn
      (fun n hn hs => hd n (List.mem_append_left _ hn) n hs rfl) hs (endsNumber_cons (by decide))
    obtain ⟨name, r, hk⟩ := hu.exists_nextKey (closeObject :: rest)
    obtain ⟨all, hall, hread⟩ := ih (hp.nodup_iff.2 hg) ((nextKey_comma hk hd).trans hk.symm)
    exact ⟨all, fun n hn => hall n (hp.mem_iff.2 hn), hm.trans hread⟩

theorem nextItem_value {f : Field σ} {text : String × (Bytes → Prop)} {a v : Bytes}
    (hf : f.Fills draft text) (ha : IsGap a) (hv : text.2 v) (rest : Bytes) :
    nextItem true (a ++ (v ++ rest)) = .ok (.item (v ++ rest)) := by
  rw [nextItem_gap ha]
  exact (hf.spells [] v hv).nextItem_first rest

theorem ValuesText.exists_nextItem (h : ValuesText fields t)
    (hfs : List.Forall₂ (fun f text => f.Fills draft text) fs fields) (rest : Bytes) :
    ∃ u, nextItem true (t ++ rest) = .ok (.item u) := by
  cases h with
  | last ha hv =>
    cases hfs with
    | cons hf _ =>
      simp only [List.append_assoc]
      exact ⟨_, nextItem_value hf ha hv _⟩
  | cons ha hv =>
    cases hfs with
    | cons hf _ =>
      simp only [List.append_assoc]
      exact ⟨_, nextItem_value hf ha hv _⟩

theorem readFields_cons {f : Field σ} {text : String × (Bytes → Prop)} {a v : Bytes}
    (hf : f.Fills draft text) (ha : IsGap a) (hv : text.2 v)
    (hs : nextItem first s = nextItem true (a ++ (v ++ rest))) (hr : EndsNumber rest) :
    readFields (f :: fs) (draft seen) first s =
      readFields fs (draft (text.1 :: seen)) false rest := by
  rw [nextItem_value hf ha hv] at hs
  simp only [readFields, hs, (hf.spells seen v hv).reads rest hr]

theorem ValuesText.readFields_eq (h : ValuesText fields t)
    (hfs : List.Forall₂ (fun f text => f.Fills draft text) fs fields) (seen : List String)
    (rest : Bytes) (hs : nextItem first s = nextItem true (t ++ closeList :: rest)) :
    ∃ all, (∀ n ∈ fields.map Prod.fst ++ seen, n ∈ all) ∧
      readFields fs (draft seen) first s = .ok (draft all, rest) := by
  induction h generalizing fs first s seen with
  | last ha hv hb =>
    cases hfs with
    | cons hf hnil =>
      cases hnil
      simp only [List.append_assoc] at hs
      have hr := endsNumber_gap_append hb (endsNumber_cons (s := rest) (b := closeList) (by decide))
      refine ⟨_, fun n hn => hn, (readFields_cons hf ha hv hs hr).trans ?_⟩
      simp [readFields, expect_gap hb (c := closeList) (by decide)]
  | @cons text fields a v b t ha hv hb ht ih =>
    cases hfs with
    | cons hf hfs =>
      simp only [List.append_assoc, List.cons_append] at hs
      obtain ⟨u, hu⟩ := ht.exists_nextItem hfs (closeList :: rest)
      obtain ⟨all, hall, hread⟩ :=
        ih hfs (text.1 :: seen) ((nextItem_comma hu hb).trans hu.symm)
      have hr : EndsNumber (b ++ comma :: (t ++ closeList :: rest)) :=
        endsNumber_gap_append hb (endsNumber_cons (by decide))
      refine ⟨all, fun n hn => hall n ?_, (readFields_cons hf ha hv hs hr).trans hread⟩
      simp only [List.map_cons, List.cons_append, List.mem_cons, List.mem_append] at hn ⊢
      tauto

/-- A record is read from each of its texts. -/
theorem RecordText.spells {shape : Shape σ α} {a : α} (hd : shape.Describes fields draft a)
    (h : RecordText fields t) : Spells shape.reader t a := by
  cases h with
  | @object given t h hg =>
    have hn : (given ++ []).Nodup := by
      rw [List.append_nil, hg.nodup_iff]
      exact hd.nodup
    refine ⟨⟨openObject, _, rfl, by decide, by decide⟩, fun rest _ => ?_⟩
    obtain ⟨all, hall, hread⟩ := h.readMembers_eq hd.fills hd.nodup hn rest rfl
    have hf := hd.finish all fun f hf =>
      hall f.1 (List.mem_append_left _ (hg.mem_iff.2 (List.mem_map_of_mem hf)))
    have hs : ∀ s : Bytes, skipBlanks (openObject :: s) = openObject :: s :=
      fun s => skipBlanks_cons (by decide)
    change shape.read (openObject :: (t ++ [closeObject]) ++ rest) = _
    rw [List.cons_append, List.append_assoc]
    simp [Shape.read, hs, hd.start, hread, Shape.close, hf]
  | @list t h =>
    refine ⟨⟨openList, _, rfl, by decide, by decide⟩, fun rest _ => ?_⟩
    obtain ⟨all, hall, hread⟩ := h.readFields_eq hd.fills [] rest rfl
    have hf := hd.finish all fun f hf =>
      hall f.1 (List.mem_append_left _ (List.mem_map_of_mem hf))
    have hs : ∀ s : Bytes, skipBlanks (openList :: s) = openList :: s :=
      fun s => skipBlanks_cons (by decide)
    have hc : (openList == openObject) = false := by decide
    change shape.read (openList :: (t ++ [closeList]) ++ rest) = _
    rw [List.cons_append, List.append_assoc]
    simp [Shape.read, hs, hc, hd.start, hread, Shape.close, hf]

theorem RecordText.endsNumber (h : RecordText fields t) (rest : Bytes) :
    EndsNumber (t ++ rest) := by
  cases h <;> exact endsNumber_cons (by decide)

theorem Field.fills_of {name : String} {reader : Reader α} {get : σ → Option α} {set : σ → α → σ}
    {texts : Bytes → Prop} {a : α} (hg : ∀ seen, name ∉ seen → get (draft seen) = none)
    (hs : ∀ seen, set (draft seen) a = draft (name :: seen)) (hr : reader.IgnoresBlanks)
    (ht : ∀ v, texts v → Spells reader v a) :
    (Field.of name reader get set).Fills draft (name, texts) where
  name := rfl
  isGiven seen hn := by simp [Field.of, hg seen hn]
  ignoresBlanks d := hr.map _
  spells seen v hv := hs seen ▸ (ht v hv).map (set (draft seen))

end

end Json

open Json Bytes

namespace Pixel

def fieldTexts (p : Pixel) : FieldTexts :=
  [("x", (· = ofDecimal p.x.toNat)), ("y", (· = ofDecimal p.y.toNat)),
    ("color", (· = ofDecimal p.color.toNat))]

def envelopeTexts (p : Pixel) : FieldTexts := [("pixel", RecordText p.fieldTexts)]

/-- The text is that of the pixels in their envelopes, one after another. -/
inductive MessageText : List Pixel → Bytes → Prop
  | nil {g : Bytes} (hg : IsGap g) : MessageText [] g
  | cons {p : Pixel} {ps : List Pixel} {g t u : Bytes} (hg : IsGap g)
      (ht : RecordText p.envelopeTexts t) (hu : MessageText ps u) :
      MessageText (p :: ps) (g ++ (t ++ u))

def draftOf (p : Pixel) (seen : List String) : Draft where
  x := if "x" ∈ seen then some p.x else none
  y := if "y" ∈ seen then some p.y else none
  color := if "color" ∈ seen then some p.color else none

theorem describes_shape (p : Pixel) : shape.Describes p.fieldTexts p.draftOf p where
  start := rfl
  nodup := by
    change ["x", "y", "color"].Nodup
    decide
  fills := by
    have hword : word.IgnoresBlanks := (integer_ignoresBlanks _).map _
    have hbyte : byte.IgnoresBlanks := (integer_ignoresBlanks _).map _
    refine .cons ?_ (.cons ?_ (.cons ?_ .nil))
    · refine Field.fills_of (a := p.x) (fun seen hn => by simp [draftOf, hn]) (fun seen => ?_)
        hword ?_
      · simp [draftOf]
      · rintro v rfl
        exact spells_word p.x
    · refine Field.fills_of (a := p.y) (fun seen hn => by simp [draftOf, hn]) (fun seen => ?_)
        hword ?_
      · simp [draftOf]
      · rintro v rfl
        exact spells_word p.y
    · refine Field.fills_of (a := p.color) (fun seen hn => by simp [draftOf, hn]) (fun seen => ?_)
        hbyte ?_
      · simp [draftOf]
      · rintro v rfl
        exact spells_byte p.color
  finish seen h := by
    simp only [fieldTexts, List.forall_mem_cons] at h
    simp [shape, draftOf, h]

theorem describes_envelope (p : Pixel) : envelope.Describes p.envelopeTexts
    (fun seen => if "pixel" ∈ seen then some p else none) p where
  start := rfl
  nodup := by
    change ["pixel"].Nodup
    decide
  fills := by
    refine .cons ?_ .nil
    refine Field.fills_of (a := p) (fun seen hn => by simp [hn]) (fun seen => ?_)
      shape.ignoresBlanks fun v hv => hv.spells p.describes_shape
    simp
  finish seen h := by
    simp only [envelopeTexts, List.forall_mem_cons] at h
    simp [envelope, h]

theorem MessageText.endsNumber {ps : List Pixel} {s : Bytes} (h : MessageText ps s) :
    EndsNumber s := by
  cases h with
  | @nil g hg =>
    have hn := endsNumber_gap_append hg endsNumber_nil
    rwa [List.append_nil] at hn
  | cons hg ht => exact endsNumber_gap_append hg (ht.endsNumber _)

theorem MessageText.readStream_eq {ps : List Pixel} {s : Bytes} (h : MessageText ps s)
    (seen : List Pixel) : readStream envelope.reader seen s = (seen.reverse ++ ps, none) := by
  induction h generalizing seen with
  | nil hg =>
    have hb := hg.skipBlanks_append []
    rw [List.append_nil] at hb
    rw [Json.readStream_eq, hb, List.append_nil]
    rfl
  | @cons p ps g t u hg ht hu ih =>
    have hs := ht.spells p.describes_envelope
    obtain ⟨c, r, hc, hb, -⟩ := hs.starts
    have hn : (skipBlanks (g ++ (t ++ u))).isEmpty = false := by
      rw [hg.skipBlanks_append, hc, List.cons_append, skipBlanks_cons hb]
      rfl
    rw [Json.readStream_eq, hn, envelope.ignoresBlanks.gap hg, hs.reads u hu.endsNumber]
    simp [ih]

/-- The pixels are read from every text that is one of them, in their order and without a fault. -/
theorem ofText_of_messageText {ps : List Pixel} {s : Bytes} (h : MessageText ps s) :
    ofText s = (ps, none) :=
  h.readStream_eq []

/-- A key with an escape, keys in another order, members that are no fields and hold a list, an
object, a lone surrogate and a number beyond all doubles, and lists for records. -/
theorem ofText_of_messageText_two :
    let s := ofString (" \x7b\"\\u0070ixel\" :\t\x7b\"color\":5,\"x\":1," ++
      "\"é\":[\x7b\"\\ud800\": -1.5e+999\x7d,[ ]],\"y\":2\x7d , \"x\":null\x7d\n[[65535,0,255]]")
    MessageText [⟨1, 2, 5⟩, ⟨65535, 0, 255⟩] s ∧
      ofText s = ([⟨1, 2, 5⟩, ⟨65535, 0, 255⟩], none) := by
  intro s
  have hn : IsGap [] := by simp [IsGap]
  have hs : IsGap [0x20] := isGap_of_all (by decide)
  have ht : IsGap [0x09] := isGap_of_all (by decide)
  have hl : IsGap [0x0A] := isGap_of_all (by decide)
  have hkey : ∀ name ∈ ["x", "y", "color", "é"], KeyText name.toList (ofString name) := by
    intro name hm
    rw [← String.ofList_toList (s := name), ofString_ofList, String.toList_ofList]
    refine keyText_plain ?_
    revert name
    decide
  have hunit : HexUnit 'p'.toNat (ofString "0070") :=
    @HexUnit.mk 0 0 7 0 _ _ _ _ (.inl rfl) (.inl rfl) (.inl rfl) (.inl rfl)
  have hlone : HexUnit 0xD800 (ofString "d800") :=
    @HexUnit.mk 13 8 0 0 _ _ _ _ (.inl rfl) (.inl rfl) (.inl rfl) (.inl rfl)
  have hpixel : KeyText "pixel".toList
      (backslash :: letterU :: ofString "0070" ++ ofString "ixel") :=
    .cons (.unit hunit) (keyText_plain (by decide))
  have hnumber : NumberText (ofString "-" ++ (ofString "1" ++
      (0x2E :: ofString "5" ++ (0x65 :: (ofString "+" ++ ofString "999"))))) :=
    .mk (by simp) (.digits (isDigits_of_all (by decide) (by decide)) (by decide))
      (.digits (isDigits_of_all (by decide) (by decide)))
      (.digits (by decide) (by simp) (isDigits_of_all (by decide) (by decide)))
  have hvalue : Phrase .value _ :=
    .list (.items (.item hn (.object (.lastMember (.member hn (.unit hlone .nil) hn
      (.item hs (.number hnumber) hn)))) hn) (.lastItem (.item hn (.emptyList hs) hn)))
  have hobject : RecordText (fieldTexts ⟨1, 2, 5⟩) _ :=
    .object (.cons (.mk hn (hkey "color" (by simp)) hn hn
      (.field (.tail _ (.tail _ (.head _))) rfl) hn)
      (.cons (.mk hn (hkey "x" (by simp)) hn hn (.field (.head _) rfl) hn)
      (.cons (.mk hn (hkey "é" (by simp)) hn hn (.other (by decide) hvalue) hn)
      (.last (.mk hn (hkey "y" (by simp)) hn hn (.field (.tail _ (.head _)) rfl) hn)))))
      (by decide)
  have hnull : Phrase .value (ofString "null") := .word (by simp)
  have hlist : RecordText (fieldTexts ⟨65535, 0, 255⟩) _ :=
    .list (.cons hn rfl hn (.cons hn rfl hn (.last hn rfl hn)))
  obtain ⟨t, he, h⟩ : ∃ t, t = s ∧ MessageText [⟨1, 2, 5⟩, ⟨65535, 0, 255⟩] t := by
    refine ⟨_, ?_, .cons hs (.object (.cons (.mk hn hpixel hs ht (.field (.head _) hobject) hs)
      (.last (.mk hs (hkey "x" (by simp)) hn hn (.other (by decide) hnull) hn))) (.refl _))
      (.cons hl (.list (.last hn hlist hn)) (.nil hn))⟩
    decide +kernel
  rw [he] at h
  exact ⟨h, ofText_of_messageText h⟩

end Pixel

end SharedCanvas
