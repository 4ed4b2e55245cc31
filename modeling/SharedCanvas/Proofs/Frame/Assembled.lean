import SharedCanvas.Proofs.Frame.Fragments

namespace SharedCanvas

namespace Frame

def dataKind? (f : Frame) : Option DataKind :=
  match f.kind? with
  | some .text => some .text
  | some .binary => some .binary
  | _ => none

def isPiece (f : Frame) : Bool := f.kind? matches some .text | some .binary | some .continuation

def aside (f : Frame) : Option Message :=
  match f.kind? with
  | some .close => some (.close (Assembler.closeCode f.payload))
  | some .ping => some (.ping f.payload)
  | _ => none

theorem kind?_of_dataKind? {f : Frame} {kind : DataKind} (h : f.dataKind? = some kind) :
    f.kind? = some kind.opcode := by
  unfold dataKind? at h
  split at h
  · rename_i hk
    rw [hk, ← Option.some.inj h]
    rfl
  · rename_i hk
    rw [hk, ← Option.some.inj h]
    rfl
  · cases h

end Frame

def Unfinished.message (u : Unfinished) : Message := u.kind.message u.payload

namespace Assembler

variable {a : Assembler} {f : Frame} {fs waiting : List Frame} {u : Unfinished}
  {e : ProtocolError} {limit : Nat}

/-- With the frame, the message has come as far as `u`. -/
inductive Extends (a : Assembler) (f : Frame) : Unfinished → Prop
  | start {kind : DataKind} (hk : f.dataKind? = some kind) (h : a.unfinished = none) :
    Extends a f ⟨kind, f.payload⟩
  | more {u : Unfinished} (hk : f.kind? = some .continuation) (h : a.unfinished = some u) :
    Extends a f ⟨u.kind, u.payload ++ f.payload⟩

/-- What is wrong with a frame. -/
inductive Refuses (a : Assembler) (f : Frame) : ProtocolError → Prop
  | unexpected (hk : f.kind? = some .continuation) (h : a.unfinished = none) :
    Refuses a f .unexpectedContinuation
  | interleaved {kind : DataKind} {u : Unfinished} (hk : f.dataKind? = some kind)
    (h : a.unfinished = some u) : Refuses a f .interleaved
  | tooLarge {u : Unfinished} (h : a.Extends f u) (hl : a.limit < u.payload.length) :
    Refuses a f (.messageTooLarge u.payload.length a.limit)

theorem Extends.isPiece (h : a.Extends f u) : f.isPiece = true := by
  cases h with
  | @start kind hk h =>
    rw [Frame.isPiece, Frame.kind?_of_dataKind? hk]
    cases kind <;> rfl
  | more hk h => rw [Frame.isPiece, hk]

theorem push_of_dataKind? {kind : DataKind} (hk : f.dataKind? = some kind) :
    a.push f = a.start kind f.fin f.payload := by
  rw [push, Frame.kind?_of_dataKind? hk]
  cases kind <;> rfl

theorem push_of_continuation (hk : f.kind? = some .continuation) :
    a.push f = a.resume f.fin f.payload := by
  rw [push, hk]

theorem answer_of_extends (h : a.Extends f u) (hl : u.payload.length ≤ a.limit) :
    a.answer f = ({ a with unfinished := if f.fin then none else some u },
      .ok (if f.fin then some u.message else none)) := by
  cases h with
  | @start kind hk h =>
    obtain ⟨limit, w⟩ := a
    obtain rfl : w = none := h
    have hp : (mk limit none).isPartial = false := rfl
    rw [answer, push_of_dataKind? hk, start, hp, if_neg Bool.false_ne_true,
      if_neg (Nat.not_lt_of_le hl)]
    cases f.fin <;> rfl
  | more hk h =>
    rw [answer, push_of_continuation hk, resume, h]
    dsimp only
    rw [if_neg (Nat.not_lt_of_le hl)]
    cases f.fin <;> rfl

theorem answer_of_refuses (h : a.Refuses f e) : a.answer f = (a, .error e) := by
  cases h with
  | unexpected hk h => rw [answer, push_of_continuation hk, resume, h]
  | interleaved hk h =>
    rw [answer, push_of_dataKind? hk, start, isPartial, h]
    rfl
  | tooLarge h hl =>
    cases h with
    | start hk h =>
      rw [answer, push_of_dataKind? hk, start, isPartial, h, if_pos hl]
      rfl
    | more hk h =>
      rw [answer, push_of_continuation hk, resume, h]
      dsimp only
      rw [if_pos hl]

theorem answer_of_not_isPiece (h : f.isPiece = false) : a.answer f = (a, .ok f.aside) := by
  unfold answer push Frame.aside
  unfold Frame.isPiece at h
  split at h
  · cases h
  · cases h
  · cases h
  · cases hk : f.kind? with
    | none => rfl
    | some opcode => cases opcode <;> simp_all

/-- A frame is no piece of a message, or it is refused, or the message is extended by it. -/
theorem cases_of_frame (a : Assembler) (f : Frame) : f.isPiece = false ∨
    (∃ e, a.Refuses f e) ∨ ∃ u, a.Extends f u ∧ u.payload.length ≤ a.limit := by
  have hext : ∀ u, a.Extends f u →
      (∃ e, a.Refuses f e) ∨ ∃ u, a.Extends f u ∧ u.payload.length ≤ a.limit := by
    intro u hu
    rcases Nat.lt_or_ge a.limit u.payload.length with hl | hl
    · exact .inl ⟨_, .tooLarge hu hl⟩
    · exact .inr ⟨u, hu, hl⟩
  cases hk : f.dataKind? with
  | some kind =>
    cases h : a.unfinished with
    | none => exact .inr (hext _ (.start hk h))
    | some u => exact .inr (.inl ⟨_, .interleaved hk h⟩)
  | none =>
    by_cases hc : f.kind? = some .continuation
    · cases h : a.unfinished with
      | none => exact .inr (.inl ⟨_, .unexpected hc h⟩)
      | some u => exact .inr (hext _ (.more hc h))
    · left
      unfold Frame.isPiece
      unfold Frame.dataKind? at hk
      split <;> simp_all

theorem answer_eq_error_iff : (a.answer f).2 = .error e ↔ a.Refuses f e := by
  constructor
  · intro h
    rcases a.cases_of_frame f with hp | ⟨e', he⟩ | ⟨u, hu, hl⟩
    · rw [answer_of_not_isPiece hp] at h
      cases h
    · rw [answer_of_refuses he] at h
      cases h
      exact he
    · rw [answer_of_extends hu hl] at h
      cases h
  · intro h
    rw [answer_of_refuses h]

/-- A program that changes an assembler in place. What it has changed before an error stays
changed. -/
abbrev InPlace := EStateM ProtocolError Assembler

namespace InPlace

def start (kind : DataKind) (f : Frame) : InPlace (Option Message) := do
  if (← get).unfinished.isSome then throw .interleaved
  let limit := (← get).limit
  if f.payload.length > limit then throw (.messageTooLarge f.payload.length limit)
  if f.fin then return some (kind.message f.payload)
  modify fun a => { a with unfinished := some ⟨kind, f.payload⟩ }
  return none

/-- The payload is put to the message before it is looked at whether the message ends. -/
def resume (f : Frame) : InPlace (Option Message) := do
  let limit := (← get).limit
  let some u := (← get).unfinished | throw .unexpectedContinuation
  let length := u.payload.length + f.payload.length
  if length > limit then throw (.messageTooLarge length limit)
  modify fun a => { a with unfinished := some { u with payload := u.payload ++ f.payload } }
  if !f.fin then return none
  let whole := (← get).unfinished
  modify fun a => { a with unfinished := none }
  return whole.map Unfinished.message

def push (f : Frame) : InPlace (Option Message) :=
  match f.kind? with
  | none => return none
  | some .text => start .text f
  | some .binary => start .binary f
  | some .continuation => resume f
  | some .close => return some (.close (closeCode f.payload))
  | some .ping => return some (.ping f.payload)
  | some .pong => return none

def pushAll (a : Assembler) :
    List Frame → Assembler × List (Except ProtocolError (Option Message))
  | [] => (a, [])
  | f :: fs =>
    match (push f).run a with
    | .ok m b => ((pushAll b fs).1, .ok m :: (pushAll b fs).2)
    | .error e b => ((pushAll b fs).1, .error e :: (pushAll b fs).2)

def result (a : Assembler) : Except ProtocolError (Assembler × Option Message) →
    EStateM.Result ProtocolError Assembler (Option Message)
  | .error e => .error e a
  | .ok (b, m) => .ok m b

theorem run_start (a : Assembler) (kind : DataKind) (f : Frame) :
    (start kind f).run a = result a (a.start kind f.fin f.payload) := by
  unfold start Assembler.start isPartial
  by_cases hp : a.unfinished.isSome = true
  · simp [hp, result]
  · by_cases hl : a.limit < f.payload.length
    · simp [hp, hl, result]
    · cases f.fin
      · simp only [bind_pure_comp, EStateM.run_bind, EStateM.run_get, gt_iff_lt, hp, hl,
          Bool.false_eq_true, ↓reduceIte, result]
        rfl
      · simp [hp, hl, result]

theorem run_resume (a : Assembler) (f : Frame) :
    (resume f).run a = result a (a.resume f.fin f.payload) := by
  unfold resume Assembler.resume
  cases hu : a.unfinished with
  | none =>
    simp only [EStateM.run_bind, EStateM.run_get, hu, result]
    rfl
  | some u =>
    by_cases hl : a.limit < u.payload.length + f.payload.length
    · simp [hu, hl, result]
    · cases f.fin
      · simp only [EStateM.run_bind, EStateM.run_get, gt_iff_lt, hu, hl, Bool.not_false,
          Bool.false_eq_true, ↓reduceIte, result, List.length_append]
        rfl
      · simp only [EStateM.run_bind, EStateM.run_get, gt_iff_lt, hu, hl, Bool.not_true,
          Bool.false_eq_true, ↓reduceIte, result, List.length_append]
        rfl

theorem run_push (a : Assembler) (f : Frame) : (push f).run a = result a (a.push f) := by
  unfold push Assembler.push
  cases f.kind? with
  | none => rfl
  | some opcode =>
    cases opcode with
    | text => exact run_start a .text f
    | binary => exact run_start a .binary f
    | continuation => exact run_resume a f
    | close => rfl
    | ping => rfl
    | pong => rfl

theorem pushAll_eq (a : Assembler) (fs : List Frame) : pushAll a fs = a.answerAll fs := by
  induction fs generalizing a with
  | nil => rfl
  | cons f fs ih =>
    rw [pushAll, run_push, answerAll, answer]
    rcases a.push f with e | ⟨b, m⟩ <;> simp only [result, ih]

end InPlace

/-- Frames that make up a message as far as it has come: one that starts it, and continuations. -/
structure Pieces (fs : List Frame) (u : Unfinished) : Prop where
  kinds : ∃ first rest, fs = first :: rest ∧ first.dataKind? = some u.kind ∧
    ∀ f ∈ rest, f.kind? = some .continuation
  payload : u.payload = fs.flatMap Frame.payload

/-- The frames that are kept for the message that is unfinished, if one is. None of them is
final. -/
structure Keeps (a : Assembler) (fs : List Frame) : Prop where
  pieces : ∀ u, a.unfinished = some u → Pieces fs u ∧ u.payload.length ≤ a.limit
  nil : a.unfinished = none → fs = []
  fin : ∀ f ∈ fs, f.fin = false

/-- A whole message, and the frames that make it up. Only the last of them is final. -/
structure Whole where
  before : List Frame
  last : Frame
  content : Unfinished
  pieces : Pieces (before ++ [last]) content
  waits : ∀ f ∈ before, f.fin = false
  fin : last.fin = true

def Whole.handed (w : Whole) : List (Frame × Option Message) :=
  w.before.map (·, none) ++ [(w.last, some w.content.message)]

def accepted? : Frame × Except ProtocolError (Option Message) → Option (Frame × Option Message)
  | (f, .ok m) => if f.isPiece then some (f, m) else none
  | (_, .error _) => none

def data? : Except ProtocolError (Option Message) → Option Message
  | .ok (some (.text p)) => some (.text p)
  | .ok (some (.binary p)) => some (.binary p)
  | _ => none

theorem keeps_nil (h : a.unfinished = none) : a.Keeps [] := by
  refine ⟨?_, fun _ => rfl, List.forall_mem_nil _⟩
  intro u hu
  rw [h] at hu
  cases hu

theorem Extends.pieces (h : a.Extends f u) (hk : a.Keeps waiting) : Pieces (waiting ++ [f]) u := by
  cases h with
  | @start kind hf hn =>
    rw [hk.nil hn]
    exact ⟨⟨f, [], rfl, hf, List.forall_mem_nil _⟩, (List.flatMap_singleton _ _).symm⟩
  | @more u hf hu =>
    obtain ⟨⟨first, rest, rfl, hd, hr⟩, hp⟩ := (hk.pieces u hu).1
    refine ⟨⟨first, rest ++ [f], rfl, hd, ?_⟩, ?_⟩
    · intro g hg
      rcases List.mem_append.1 hg with hg | hg
      · exact hr g hg
      · rwa [List.mem_singleton.1 hg]
    · rw [List.flatMap_append, List.flatMap_singleton, ← hp]

/-- The pieces that are accepted, behind those that wait, are the messages that are handed out and
what then waits. -/
theorem Keeps.answerAll (h : a.Keeps waiting) (fs : List Frame) :
    ∃ (wholes : List Whole) (waiting' : List Frame),
      (a.answerAll fs).1.Keeps waiting' ∧ (a.answerAll fs).1.limit = a.limit ∧
      waiting.map (·, none) ++ (fs.zip (a.answerAll fs).2).filterMap accepted? =
        wholes.flatMap Whole.handed ++ waiting'.map (·, none) ∧
      (a.answerAll fs).2.filterMap data? = wholes.map (·.content.message) ∧
      ∀ w ∈ wholes, w.content.payload.length ≤ a.limit := by
  -- On the frames: each leaves no trace, or it waits behind the others, or it ends a message.
  induction fs generalizing a waiting with
  | nil => exact ⟨[], waiting, h, rfl, by simp [Assembler.answerAll], rfl, List.forall_mem_nil _⟩
  | cons f fs ih =>
    rw [Assembler.answerAll]
    dsimp only
    rw [List.zip_cons_cons]
    rcases a.cases_of_frame f with hp | ⟨e, he⟩ | ⟨u, hu, hl⟩
    · rw [answer_of_not_isPiece hp]
      obtain ⟨wholes, waiting', hk, hm, hw, hd, hb⟩ := ih h
      have hc : accepted? (f, .ok f.aside) = none := by simp [accepted?, hp]
      have ha : data? (.ok f.aside) = none := by
        unfold Frame.aside
        split <;> rfl
      exact ⟨wholes, waiting', hk, hm, by rwa [List.filterMap_cons_none hc],
        by rwa [List.filterMap_cons_none ha], hb⟩
    · rw [answer_of_refuses he]
      exact ih h
    · rw [answer_of_extends hu hl]
      dsimp only
      have hpieces := hu.pieces h
      have hc : ∀ m, accepted? (f, .ok m) = some (f, m) := by simp [accepted?, hu.isPiece]
      cases hf : f.fin with
      | false =>
        have hk : Keeps { a with unfinished := some u } (waiting ++ [f]) := by
          refine ⟨?_, fun hn => absurd hn (Option.some_ne_none u), ?_⟩
          · intro v hv
            obtain rfl := Option.some.inj hv
            exact ⟨hpieces, hl⟩
          · intro g hg
            rcases List.mem_append.1 hg with hg | hg
            · exact h.fin g hg
            · rwa [List.mem_singleton.1 hg]
        obtain ⟨wholes, waiting', hk, hm, hw, hd, hb⟩ := ih hk
        refine ⟨wholes, waiting', hk, hm, ?_, hd, hb⟩
        rw [← hw]
        simp [hc]
      | true =>
        have hk : Keeps { a with unfinished := none } [] := keeps_nil rfl
        obtain ⟨wholes, waiting', hk, hm, hw, hd, hb⟩ := ih hk
        let whole : Whole := ⟨waiting, f, u, hpieces, h.fin, hf⟩
        refine ⟨whole :: wholes, waiting', hk, hm, ?_, ?_, List.forall_mem_cons.2 ⟨hl, hb⟩⟩
        · rw [List.flatMap_cons, List.append_assoc, ← hw]
          simp [hc, Whole.handed, whole]
        · rw [List.map_cons, ← hd]
          have ha : data? (.ok (some u.message)) = some u.message := by
            unfold Unfinished.message
            cases u.kind <;> rfl
          exact List.filterMap_cons_some ha

theorem length_answerAll (a : Assembler) (fs : List Frame) :
    (a.answerAll fs).2.length = fs.length := by
  induction fs generalizing a with
  | nil => rfl
  | cons f fs ih => rw [answerAll, List.length_cons, List.length_cons, ih]

theorem push_eq_error_iff : a.push f = .error e ↔ a.Refuses f e := by
  rw [← answer_eq_error_iff, answer]
  rcases a.push f with e' | ⟨b, m⟩ <;> simp

/-- Whatever frames an assembler is pushed, in place and with errors between them, the pieces of
messages that it accepts are those of the messages that it hands out, in order and each as one, and
of the one that is unfinished; none of these is longer than the limit. The errors are that a
continuation has nothing to continue, that a message starts inside another, and that a message would
be too long, and they leave the assembler as it was. So do frames that are no pieces, which are
never errors. -/
theorem accepted_eq_handed (limit : Nat) (fs : List Frame) :
    let a := ((new limit).answerAll fs).1
    let answers := ((new limit).answerAll fs).2
    InPlace.pushAll (new limit) fs = (a, answers) ∧ answers.length = fs.length ∧ a.limit = limit ∧
    (∃ (wholes : List Whole) (waiting : List Frame),
      (fs.zip answers).filterMap accepted? =
        wholes.flatMap Whole.handed ++ waiting.map (·, none) ∧
      answers.filterMap data? = wholes.map (·.content.message) ∧
      (∀ w ∈ wholes, w.content.payload.length ≤ limit) ∧ a.Keeps waiting) ∧
    (∀ u, a.unfinished = some u → u.payload.length ≤ limit) ∧
    (∀ f e, a.push f = .error e ↔ a.Refuses f e) ∧
    (∀ f e b, (InPlace.push f).run a = .error e b ↔ a.Refuses f e ∧ b = a) ∧
    (∀ f, f.isPiece = false →
      a.push f = .ok (a, f.aside) ∧ (InPlace.push f).run a = .ok f.aside a) := by
  intro a answers
  have hnew : (new limit).Keeps [] := keeps_nil rfl
  obtain ⟨wholes, waiting, hk, hm, hw, hd, hb⟩ := hnew.answerAll fs
  have hlimit : a.limit = limit := hm
  refine ⟨InPlace.pushAll_eq _ fs, length_answerAll _ fs, hlimit, ⟨wholes, waiting, hw, hd, hb, hk⟩,
    fun u hu => hlimit ▸ (hk.pieces u hu).2, fun _ _ => push_eq_error_iff, ?_, ?_⟩
  · intro f e b
    rw [← push_eq_error_iff, InPlace.run_push]
    rcases a.push f with e' | ⟨c, m⟩ <;> simp [InPlace.result, eq_comm]
  · intro f hf
    have hp : a.push f = .ok (a, f.aside) := by
      have h := answer_of_not_isPiece (a := a) hf
      rw [answer] at h
      rcases hp : a.push f with e | ⟨b, m⟩
      · rw [hp] at h
        cases h
      · rw [hp] at h
        cases h
        rfl
    exact ⟨hp, by rw [InPlace.run_push, hp]; rfl⟩

/-- A continuation that comes too early, a text that starts in a binary message and a piece that is
too long are refused, and the message goes on behind them. -/
example : ((new 3).answerAll [⟨true, 0, true, [9]⟩, ⟨false, 2, true, [1]⟩, ⟨true, 1, true, [9]⟩,
    ⟨true, 0, true, [7, 8, 9]⟩, ⟨true, 9, true, [5]⟩, ⟨true, 0, true, [2, 3]⟩]).2 =
      [.error .unexpectedContinuation, .ok none, .error .interleaved, .error (.messageTooLarge 4 3),
        .ok (some (.ping [5])), .ok (some (.binary [1, 2, 3]))] := by
  rfl

end Assembler
end SharedCanvas
