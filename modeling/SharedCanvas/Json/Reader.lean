import SharedCanvas.Json.Numeral
import SharedCanvas.Json.Skip

namespace SharedCanvas.Json

/-- Reads one value off the front of a text. -/
structure Reader (α : Type) where
  run : Bytes → Scan α
  shrinks : ∀ {s a r}, run s = .ok (a, r) → r.length < s.length

/-- The fault of a value that is of another kind than was asked for: it is read as far as its kind
shows, and a fault on the way comes first. -/
def unwanted : Bytes → Fault
  | [] => .cutShort
  | c :: s =>
    let verdict {α : Type} : Except Fault α → Fault := fun
      | .error e => e
      | .ok _ => .mismatch
    if c == 0x6E then verdict (scanWord [0x75, 0x6C, 0x6C] s)
    else if c == 0x74 then verdict (scanWord [0x72, 0x75, 0x65] s)
    else if c == 0x66 then verdict (scanWord [0x61, 0x6C, 0x73, 0x65] s)
    else if c == quoteMark then verdict (readString [] s)
    else if c == minus || isDigit c then
      match readNumeral (c :: s) with
      | .error e => e
      | .ok (n, _) => verdict n.integer?
    else if c == openList || c == openObject then .mismatch
    else .malformed

def readInteger (max : Nat) (s : Bytes) : Scan Nat :=
  match skipBlanks s with
  | [] => .error .cutShort
  | c :: s =>
    if c == minus || isDigit c then
      match readNumeral (c :: s) with
      | .error e => .error e
      | .ok (n, r) =>
        match n.integer? with
        | .error e => .error e
        | .ok none => .error .mismatch
        | .ok (some v) => if v ≤ max then .ok (v, r) else .error .mismatch
    else .error (unwanted (c :: s))

/-- What stands next in a list. -/
inductive NextItem
  | closed (rest : Bytes)
  | item (rest : Bytes)

def nextItem (first : Bool) (s : Bytes) : Except Fault NextItem :=
  match skipBlanks s with
  | [] => .error .cutShort
  | c :: s =>
    if c == closeList then .ok (.closed s)
    else if first then .ok (.item (c :: s))
    else if c == comma then
      match skipBlanks s with
      | [] => .error .cutShort
      | d :: t => if d == closeList then .error .malformed else .ok (.item (d :: t))
    else .error .malformed

/-- What stands next in an object. -/
inductive NextKey
  | closed (rest : Bytes)
  | key (name rest : Bytes)

def readKey (s : Bytes) : Except Fault NextKey :=
  match readString [] s with
  | .error e => .error e
  | .ok (name, r) => .ok (.key name r)

def nextKey (first : Bool) (s : Bytes) : Except Fault NextKey :=
  match skipBlanks s with
  | [] => .error .cutShort
  | c :: s =>
    if c == closeObject then .ok (.closed s)
    else if first then if c == quoteMark then readKey s else .error .malformed
    else if c == comma then
      match skipBlanks s with
      | [] => .error .cutShort
      | d :: t => if d == quoteMark then readKey t else .error .malformed
    else .error .malformed

def expect (wanted : UInt8) (s : Bytes) : Except Fault Bytes :=
  match skipBlanks s with
  | [] => .error .cutShort
  | c :: s => if c == wanted then .ok s else .error .malformed

theorem cons_length_of_skipBlanks {s t : Bytes} {c : UInt8} (h : skipBlanks s = c :: t) :
    t.length < s.length := by
  have := length_skipBlanks s
  rw [h] at this
  simp only [List.length_cons] at this
  omega

theorem length_readInteger {max n : Nat} {s r : Bytes} (h : readInteger max s = .ok (n, r)) :
    r.length < s.length := by
  unfold readInteger at h
  split at h
  · simp at h
  · rename_i hs
    have := cons_length_of_skipBlanks hs
    split at h
    · split at h
      · simp at h
      · rename_i hn
        have := length_readNumeral hn
        simp only [List.length_cons] at this
        split at h
        · simp at h
        · simp at h
        · split at h
          · simp only [Except.ok.injEq, Prod.mk.injEq] at h
            rw [← h.2]; omega
          · simp at h
    · simp at h

theorem length_nextItem_item {first : Bool} {s r : Bytes} (h : nextItem first s = .ok (.item r)) :
    r.length ≤ s.length := by
  unfold nextItem at h
  split at h
  · simp at h
  · rename_i hs
    have := cons_length_of_skipBlanks hs
    split at h
    · simp at h
    · split at h
      · simp only [Except.ok.injEq, NextItem.item.injEq] at h
        rw [← h, List.length_cons]; omega
      · split at h
        · split at h
          · simp at h
          · rename_i ht
            have := cons_length_of_skipBlanks ht
            split at h
            · simp at h
            · simp only [Except.ok.injEq, NextItem.item.injEq] at h
              rw [← h, List.length_cons]; omega
        · simp at h

theorem length_nextItem_closed {first : Bool} {s r : Bytes}
    (h : nextItem first s = .ok (.closed r)) : r.length < s.length := by
  unfold nextItem at h
  split at h
  · simp at h
  · rename_i hs
    have := cons_length_of_skipBlanks hs
    split at h
    · simp only [Except.ok.injEq, NextItem.closed.injEq] at h
      rw [← h]; omega
    · split at h
      · simp at h
      · split at h
        · split at h
          · simp at h
          · split at h <;> simp at h
        · simp at h

theorem length_readKey {s k r : Bytes} (h : readKey s = .ok (.key k r)) :
    r.length < s.length := by
  unfold readKey at h
  split at h
  · simp at h
  · rename_i hk
    have := length_readString hk
    simp only [Except.ok.injEq, NextKey.key.injEq] at h
    rw [← h.2]; omega

theorem readKey_ne_closed {s r : Bytes} : readKey s ≠ .ok (.closed r) := by
  unfold readKey
  split <;> simp

theorem length_nextKey_key {first : Bool} {s k r : Bytes} (h : nextKey first s = .ok (.key k r)) :
    r.length < s.length := by
  unfold nextKey at h
  split at h
  · simp at h
  · rename_i hs
    have := cons_length_of_skipBlanks hs
    split at h
    · simp at h
    · split at h
      · split at h
        · have := length_readKey h; omega
        · simp at h
      · split at h
        · split at h
          · simp at h
          · rename_i ht
            have := cons_length_of_skipBlanks ht
            split at h
            · have := length_readKey h; omega
            · simp at h
        · simp at h

theorem length_nextKey_closed {first : Bool} {s r : Bytes} (h : nextKey first s = .ok (.closed r)) :
    r.length < s.length := by
  unfold nextKey at h
  split at h
  · simp at h
  · rename_i hs
    have := cons_length_of_skipBlanks hs
    split at h
    · simp only [Except.ok.injEq, NextKey.closed.injEq] at h
      rw [← h]; omega
    · split at h
      · split at h
        · exact absurd h readKey_ne_closed
        · simp at h
      · split at h
        · split at h
          · simp at h
          · split at h
            · exact absurd h readKey_ne_closed
            · simp at h
        · simp at h

theorem length_expect {b : UInt8} {s r : Bytes} (h : expect b s = .ok r) :
    r.length < s.length := by
  unfold expect at h
  split at h
  · simp at h
  · rename_i hs
    have := cons_length_of_skipBlanks hs
    split at h
    · simp only [Except.ok.injEq] at h
      rw [← h]; omega
    · simp at h

def integer (max : Nat) : Reader Nat := ⟨readInteger max, length_readInteger⟩

namespace Reader

def map {α β : Type} (f : α → β) (reader : Reader α) : Reader β where
  run s :=
    match reader.run s with
    | .error e => .error e
    | .ok (a, r) => .ok (f a, r)
  shrinks {s b r} h := by
    split at h
    · simp at h
    · rename_i ha
      have := reader.shrinks ha
      simp only [Except.ok.injEq, Prod.mk.injEq] at h
      rw [← h.2]; exact this

end Reader

def byte : Reader UInt8 := (integer 255).map UInt8.ofNat

def word : Reader UInt16 := (integer maxWord16).map UInt16.ofNat

/-- The items of a list after its bracket; `seen` holds those that have been read, backwards. -/
def readItems {α : Type} (item : Reader α) (seen : List α) (first : Bool) (s : Bytes) :
    Scan (List α) :=
  match hn : nextItem first s with
  | .error e => .error e
  | .ok (.closed r) => .ok (seen.reverse, r)
  | .ok (.item t) =>
    match hi : item.run t with
    | .error e => .error e
    | .ok (a, r) =>
      have := length_nextItem_item hn
      have := item.shrinks hi
      readItems item (a :: seen) false r
termination_by s.length

theorem length_readItems {α : Type} {item : Reader α} {seen as : List α} {first : Bool}
    {s r : Bytes} (h : readItems item seen first s = .ok (as, r)) : r.length < s.length := by
  fun_induction readItems item seen first s with
  | case1 => simp at h
  | case2 _ _ _ _ hn =>
    have := length_nextItem_closed hn
    simp only [Except.ok.injEq, Prod.mk.injEq] at h
    rw [← h.2]; exact this
  | case3 => simp at h
  | case4 _ _ _ _ _ _ _ _ _ _ ih => have := ih h; omega

theorem readItems_eq {α : Type} (item : Reader α) (seen : List α) (first : Bool) (s : Bytes) :
    readItems item seen first s =
      match nextItem first s with
      | .error e => .error e
      | .ok (.closed r) => .ok (seen.reverse, r)
      | .ok (.item t) =>
        match item.run t with
        | .error e => .error e
        | .ok (a, r) => readItems item (a :: seen) false r := by
  rw [readItems]
  split
  · simp [*]
  · simp [*]
  · rename_i hk
    simp only [hk]
    split <;> simp_all

def readList {α : Type} (item : Reader α) (s : Bytes) : Scan (List α) :=
  match skipBlanks s with
  | [] => .error .cutShort
  | c :: t => if c == openList then readItems item [] true t else .error (unwanted (c :: t))

theorem length_readList {α : Type} {item : Reader α} {s r : Bytes} {as : List α}
    (h : readList item s = .ok (as, r)) : r.length < s.length := by
  unfold readList at h
  split at h
  · simp at h
  · rename_i hs
    have := cons_length_of_skipBlanks hs
    split at h
    · have := length_readItems h; omega
    · simp at h

def list {α : Type} (item : Reader α) : Reader (List α) := ⟨readList item, length_readList⟩

/-- A field of a record, of which the drafts are of type `σ`. -/
structure Field (σ : Type) where
  name : Bytes
  /-- The draft has this field already. -/
  isGiven : σ → Bool
  /-- Reads the field's value and enters it. -/
  value : σ → Reader σ

def Field.of {σ α : Type} (name : String) (reader : Reader α) (get : σ → Option α)
    (set : σ → α → σ) : Field σ where
  name := Bytes.ofString name
  isGiven draft := (get draft).isSome
  value draft := reader.map (set draft)

/-- The members of an object after its bracket. A field may be given once; members that are no
field are passed over. -/
def readMembers {σ : Type} (fields : List (Field σ)) (draft : σ) (first : Bool) (s : Bytes) :
    Scan σ :=
  match hk : nextKey first s with
  | .error e => .error e
  | .ok (.closed r) => .ok (draft, r)
  | .ok (.key name t) =>
    match fields.find? fun f => f.name == name with
    | none =>
      match hc : expect colon t with
      | .error e => .error e
      | .ok u =>
        match hv : skipValue u with
        | .error e => .error e
        | .ok r =>
          have := length_nextKey_key hk
          have := length_expect hc
          have := length_skipValue hv
          readMembers fields draft false r
    | some field =>
      if field.isGiven draft then .error .mismatch
      else
        match hc : expect colon t with
        | .error e => .error e
        | .ok u =>
          match hv : (field.value draft).run u with
          | .error e => .error e
          | .ok (draft', r) =>
            have := length_nextKey_key hk
            have := length_expect hc
            have := (field.value draft).shrinks hv
            readMembers fields draft' false r
termination_by s.length

def readFields {σ : Type} : List (Field σ) → σ → Bool → Bytes → Scan σ
  | [], draft, _, s =>
    match expect closeList s with
    | .error e => .error e
    | .ok r => .ok (draft, r)
  | field :: fields, draft, first, s =>
    match nextItem first s with
    | .error e => .error e
    | .ok (.closed _) => .error .mismatch
    | .ok (.item t) =>
      match (field.value draft).run t with
      | .error e => .error e
      | .ok (draft', r) => readFields fields draft' false r

theorem readMembers_eq {σ : Type} (fields : List (Field σ)) (draft : σ) (first : Bool) (s : Bytes) :
    readMembers fields draft first s =
      match nextKey first s with
      | .error e => .error e
      | .ok (.closed r) => .ok (draft, r)
      | .ok (.key name t) =>
        match fields.find? fun f => f.name == name with
        | none =>
          match (expect colon t).bind skipValue with
          | .error e => .error e
          | .ok r => readMembers fields draft false r
        | some field =>
          if field.isGiven draft then .error .mismatch
          else
            match (expect colon t).bind (field.value draft).run with
            | .error e => .error e
            | .ok (draft', r) => readMembers fields draft' false r := by
  rw [readMembers]
  split
  · simp [*]
  · simp [*]
  · rename_i hk
    simp only [hk]
    split
    · split
      · simp_all [Except.bind]
      · rename_i hc
        simp only [hc, Except.bind]
        split <;> simp_all
    · split
      · rfl
      · split
        · simp_all [Except.bind]
        · rename_i hc
          simp only [hc, Except.bind]
          split <;> simp_all

theorem length_readMembers {σ : Type} {fields : List (Field σ)} {draft out : σ} {first : Bool}
    {s r : Bytes} (h : readMembers fields draft first s = .ok (out, r)) :
    r.length < s.length := by
  fun_induction readMembers fields draft first s with
  | case2 _ _ _ _ hk =>
    have := length_nextKey_closed hk
    simp only [Except.ok.injEq, Prod.mk.injEq] at h
    rw [← h.2]; exact this
  | case5 => rename_i ih; have := ih h; omega
  | case9 => rename_i ih; have := ih h; omega
  | _ => simp at h

theorem length_readFields {σ : Type} {fields : List (Field σ)} {draft out : σ} {first : Bool}
    {s r : Bytes} (h : readFields fields draft first s = .ok (out, r)) :
    r.length < s.length := by
  induction fields generalizing draft first s with
  | nil =>
    simp only [readFields] at h
    split at h
    · simp at h
    · rename_i he
      have := length_expect he
      simp only [Except.ok.injEq, Prod.mk.injEq] at h
      rw [← h.2]; exact this
  | cons f fields ih =>
    simp only [readFields] at h
    split at h
    · simp at h
    · simp at h
    · rename_i hn
      have := length_nextItem_item hn
      split at h
      · simp at h
      · rename_i hv
        have := (f.value draft).shrinks hv
        have := ih h
        omega

/-- The shape of a record: what a draft starts as, and the record of a full draft. -/
structure Shape (σ α : Type) where
  fields : List (Field σ)
  start : σ
  finish : σ → Option α

namespace Shape

variable {σ α : Type}

def close (shape : Shape σ α) : Scan σ → Scan α
  | .error e => .error e
  | .ok (draft, r) =>
    match shape.finish draft with
    | none => .error .mismatch
    | some a => .ok (a, r)

def read (shape : Shape σ α) (s : Bytes) : Scan α :=
  match skipBlanks s with
  | [] => .error .cutShort
  | c :: t =>
    if c == openObject then shape.close (readMembers shape.fields shape.start true t)
    else if c == openList then shape.close (readFields shape.fields shape.start true t)
    else .error (unwanted (c :: t))

theorem close_eq_ok {shape : Shape σ α} {x : Scan σ} {a : α} {r : Bytes}
    (h : shape.close x = .ok (a, r)) :
    ∃ draft, x = .ok (draft, r) ∧ shape.finish draft = some a := by
  unfold close at h
  split at h
  · simp at h
  · split at h
    · simp at h
    · rename_i hf
      simp only [Except.ok.injEq, Prod.mk.injEq] at h
      obtain ⟨rfl, rfl⟩ := h
      exact ⟨_, rfl, hf⟩

theorem length_read {shape : Shape σ α} {s r : Bytes} {a : α} (h : shape.read s = .ok (a, r)) :
    r.length < s.length := by
  unfold read at h
  split at h
  · simp at h
  · rename_i hs
    have := cons_length_of_skipBlanks hs
    split at h
    · obtain ⟨_, hm, _⟩ := close_eq_ok h
      have := length_readMembers hm
      omega
    · split at h
      · obtain ⟨_, hm, _⟩ := close_eq_ok h
        have := length_readFields hm
        omega
      · simp at h

def reader (shape : Shape σ α) : Reader α := ⟨shape.read, length_read⟩

end Shape

def readWholeText {α : Type} (reader : Reader α) (s : Bytes) : Except Fault α :=
  match reader.run s with
  | .error e => .error e
  | .ok (a, r) => if (skipBlanks r).isEmpty then .ok a else .error .malformed

/-- The values that stand one after another in a text, up to the first fault; `seen` holds those
that have been read, backwards. -/
def readStream {α : Type} (reader : Reader α) (seen : List α) (s : Bytes) :
    List α × Option Fault :=
  if (skipBlanks s).isEmpty then (seen.reverse, none)
  else
    match h : reader.run s with
    | .error e => (seen.reverse, some e)
    | .ok (a, r) =>
      have := reader.shrinks h
      readStream reader (a :: seen) r
termination_by s.length

theorem readStream_eq {α : Type} (reader : Reader α) (seen : List α) (s : Bytes) :
    readStream reader seen s =
      if (skipBlanks s).isEmpty then (seen.reverse, none)
      else
        match reader.run s with
        | .error e => (seen.reverse, some e)
        | .ok (a, r) => readStream reader (a :: seen) r := by
  rw [readStream]
  split
  · rfl
  · split <;> simp_all
end SharedCanvas.Json
