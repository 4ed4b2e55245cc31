import SharedCanvas.Json.Lexeme

namespace SharedCanvas.Json

inductive Bracket
  | list
  | object
deriving DecidableEq, Repr

def Bracket.closer : Bracket → UInt8
  | list => closeList
  | object => closeObject

/-- How far a number has come. -/
inductive NumberState
  /-- A minus sign: a digit must follow. -/
  | sign
  /-- A zero in front, which is all of the whole part. -/
  | zero
  | whole
  /-- A point: a digit must follow. -/
  | point
  | fraction
  /-- The mark of an exponent: a sign or a digit must follow. -/
  | mark
  /-- The sign of an exponent: a digit must follow. -/
  | power
  | exponent
deriving DecidableEq, Repr

/-- What is known of the value that is being passed over. -/
inductive Mode
  /-- A value must come. -/
  | value
  /-- A list has just been opened. -/
  | item
  /-- An object has just been opened. -/
  | member
  /-- A key must come. -/
  | key
  /-- A key has been read. -/
  | colon
  /-- A value has been read. -/
  | after
  /-- Inside a string, which may be a key. -/
  | text (isKey : Bool)
  /-- After a backslash. -/
  | escape (isKey : Bool)
  /-- Inside a word, of which these bytes must come. -/
  | word (rest : Bytes)
  | number (state : NumberState)
deriving DecidableEq, Repr

/-- What a byte does. -/
inductive Move
  | go (mode : Mode) (enclosing : List Bracket)
  /-- Four hexadecimal digits must come next. -/
  | digits (mode : Mode) (enclosing : List Bracket)
  /-- The value ends with this byte. -/
  | ends
  /-- The value has ended before this byte. -/
  | ended
  | fails
deriving DecidableEq, Repr

def NumberState.next? (state : NumberState) (c : UInt8) : Option NumberState :=
  match state with
  | sign => if c == 0x30 then some zero else if isDigit c then some whole else none
  | zero => if c == 0x2E then some point else if c == 0x65 || c == 0x45 then some mark else none
  | whole =>
    if isDigit c then some whole
    else if c == 0x2E then some point
    else if c == 0x65 || c == 0x45 then some mark else none
  | point => if isDigit c then some fraction else none
  | fraction =>
    if isDigit c then some fraction else if c == 0x65 || c == 0x45 then some mark else none
  | mark =>
    if c == 0x2B || c == minus then some power else if isDigit c then some exponent else none
  | power => if isDigit c then some exponent else none
  | exponent => if isDigit c then some exponent else none

def NumberState.isWhole : NumberState → Bool
  | zero | whole | fraction | exponent => true
  | sign | point | mark | power => false

def closing (enclosing : List Bracket) : Move :=
  if enclosing.isEmpty then .ends else .go .after enclosing

def afterMove (enclosing : List Bracket) (c : UInt8) : Move :=
  match enclosing with
  | [] => .ended
  | b :: outer =>
    if isBlank c then .go .after enclosing
    else if c == comma then .go (if b = .list then .value else .key) enclosing
    else if c == b.closer then closing outer
    else .fails

def valueMove (enclosing : List Bracket) (c : UInt8) : Move :=
  if isBlank c then .go .value enclosing
  else if c == quoteMark then .go (.text false) enclosing
  else if c == openList then .go .item (.list :: enclosing)
  else if c == openObject then .go .member (.object :: enclosing)
  else if c == minus then .go (.number .sign) enclosing
  else if c == 0x30 then .go (.number .zero) enclosing
  else if isDigit c then .go (.number .whole) enclosing
  else if c == 0x6E then .go (.word [0x75, 0x6C, 0x6C]) enclosing
  else if c == 0x74 then .go (.word [0x72, 0x75, 0x65]) enclosing
  else if c == 0x66 then .go (.word [0x61, 0x6C, 0x73, 0x65]) enclosing
  else .fails

def move (mode : Mode) (enclosing : List Bracket) (c : UInt8) : Move :=
  match mode with
  | .value => valueMove enclosing c
  | .item =>
    if isBlank c then .go .item enclosing
    else if c == closeList then closing enclosing.tail
    else valueMove enclosing c
  | .member =>
    if isBlank c then .go .member enclosing
    else if c == closeObject then closing enclosing.tail
    else if c == quoteMark then .go (.text true) enclosing
    else .fails
  | .key =>
    if isBlank c then .go .key enclosing
    else if c == quoteMark then .go (.text true) enclosing
    else .fails
  | .colon =>
    if isBlank c then .go .colon enclosing
    else if c == colon then .go .value enclosing
    else .fails
  | .after => afterMove enclosing c
  | .text isKey =>
    if c == quoteMark then if isKey then .go .colon enclosing else closing enclosing
    else if c == backslash then .go (.escape isKey) enclosing
    else if c < 0x20 then .fails
    else .go (.text isKey) enclosing
  | .escape isKey =>
    if (simpleEscape? c).isSome then .go (.text isKey) enclosing
    else if c == letterU then .digits (.text isKey) enclosing
    else .fails
  | .word [] => afterMove enclosing c
  | .word [w] => if w == c then closing enclosing else .fails
  | .word (w :: ws) => if w == c then .go (.word ws) enclosing else .fails
  | .number state =>
    match state.next? c with
    | some state' => .go (.number state') enclosing
    | none =>
      if !state.isWhole || (state == .zero && isDigit c) then .fails else afterMove enclosing c

def atEnd (mode : Mode) (enclosing : List Bracket) : Except Fault Bytes :=
  match mode with
  | .number state =>
    if !state.isWhole then .error .malformed
    else if enclosing.isEmpty then .ok []
    else .error .cutShort
  | _ => .error .cutShort

def skipFrom (mode : Mode) (enclosing : List Bracket) : Bytes → Except Fault Bytes
  | [] => atEnd mode enclosing
  | c :: s =>
    match move mode enclosing c with
    | .go mode' enclosing' => skipFrom mode' enclosing' s
    | .digits mode' enclosing' =>
      match s with
      | x :: y :: z :: w :: s =>
        if (hexUnit? x y z w).isSome then skipFrom mode' enclosing' s else .error .malformed
      | _ => .error .cutShort
    | .ends => .ok s
    | .ended => .ok (c :: s)
    | .fails => .error .malformed

theorem eq_nil_of_atEnd {mode : Mode} {enclosing : List Bracket} {r : Bytes}
    (h : atEnd mode enclosing = .ok r) : r = [] := by
  unfold atEnd at h
  split at h
  · split at h
    · simp at h
    · split at h <;> simp_all
  · simp at h

theorem length_skipFrom {mode : Mode} {enclosing : List Bracket} {s r : Bytes}
    (h : skipFrom mode enclosing s = .ok r) : r.length ≤ s.length := by
  fun_induction skipFrom mode enclosing s with
  | case1 => simp [eq_nil_of_atEnd h]
  | case2 => simp_all; omega
  | case3 => simp_all; omega
  | _ => simp_all

def skipValue (s : Bytes) : Except Fault Bytes := skipFrom .value [] s

theorem length_skipValue {s r : Bytes} (h : skipValue s = .ok r) : r.length ≤ s.length :=
  length_skipFrom h

end SharedCanvas.Json
