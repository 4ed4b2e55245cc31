import SharedCanvas.Proofs.Frame.Reassembly

namespace SharedCanvas

def DataKind.opcode : DataKind → Opcode
  | .text => .text
  | .binary => .binary

/-- One frame on the wire that may come between the fragments of a message. -/
structure Interlude where
  bytes : Bytes
  frame : Frame
  decoded : Frame.decode bytes = .ok (.complete frame bytes.length)
  kind : frame.kind? = none ∨ frame.kind? = some .ping ∨ frame.kind? = some .pong

namespace Interlude

def control (opcode : Opcode) (ho : opcode = .ping ∨ opcode = .pong) (key? : Option MaskKey)
    (payload : Bytes) (h : payload.length ≤ 125) : Interlude where
  bytes := Frame.encodeWith key? true opcode payload
  frame := ⟨true, opcode.code, key?.isSome, payload⟩
  decoded := by
    have hd : Frame.decode (Frame.encodeWith key? true opcode payload ++ []) = _ :=
      Frame.decode_encodeWith key? (Nat.lt_of_le_of_lt h (by decide)) (fun _ => ⟨rfl, h⟩) []
    rwa [List.append_nil] at hd
  kind := by
    rcases ho with rfl | rfl
    · exact .inr (.inl rfl)
    · exact .inr (.inr rfl)

def message (i : Interlude) : Option Message :=
  if i.frame.kind? = some .ping then some (.ping i.frame.payload) else none

end Interlude

/-- A piece of a message, the key it is masked with, and what comes before it. -/
structure Fragment where
  before : List Interlude
  payload : Bytes
  key : MaskKey

namespace Fragment

/-- The fragments on the wire. The first of them says what the message is, and only the last is
final. -/
def wire (opcode : Opcode) : List Fragment → Bytes
  | [] => []
  | f :: fs =>
    f.before.flatMap Interlude.bytes ++
      (Frame.encodeFragment opcode fs.isEmpty f.payload f.key ++ wire .continuation fs)

def frames (opcode : Opcode) : List Fragment → List Frame
  | [] => []
  | f :: fs =>
    f.before.map Interlude.frame ++
      ⟨fs.isEmpty, opcode.code, true, f.payload⟩ :: frames .continuation fs

def pings (fs : List Fragment) : List (Option Message) :=
  fs.flatMap fun f => f.before.map Interlude.message ++ [none]

/-- What is made of all fragments of a message: the message comes with the last of them. -/
def answers (message : Message) : List Fragment → List (Option Message)
  | [] => []
  | f :: fs =>
    f.before.map Interlude.message ++
      (if fs.isEmpty then some message else none) :: answers message fs

theorem split_interludes (is : List Interlude) (rest : Bytes) :
    Frame.split (is.flatMap Interlude.bytes ++ rest) =
      (is.map Interlude.frame ++ (Frame.split rest).1, (Frame.split rest).2) := by
  induction is with
  | nil => rfl
  | cons i is ih =>
    rw [List.flatMap_cons, List.append_assoc, Frame.split_append_of_whole i.decoded, ih]
    rfl

theorem split_wire {opcode : Opcode} (ho : opcode.isControl = false) {fs : List Fragment}
    (hf : ∀ f ∈ fs, f.payload.length < 2 ^ 63) :
    Frame.split (wire opcode fs) = (frames opcode fs, [], none) := by
  induction fs generalizing opcode with
  | nil => exact Frame.split_of_incomplete (n := 2) rfl
  | cons f fs ih =>
    have hd : Frame.decode (Frame.encodeWith (some f.key) fs.isEmpty opcode f.payload ++ []) = _ :=
      Frame.decode_encodeWith (some f.key) (hf f List.mem_cons_self) (by simp [ho]) []
    rw [List.append_nil] at hd
    rw [wire, split_interludes, Frame.encodeFragment, Frame.split_append_of_whole hd,
      ih rfl fun g hg => hf g (List.mem_cons_of_mem _ hg)]
    rfl

end Fragment

namespace Assembler

variable {a : Assembler} {limit : Nat} {kind : DataKind} {opcode : Opcode} {acc : Bytes}

theorem answer_interlude (a : Assembler) (i : Interlude) :
    a.answer i.frame = (a, .ok i.message) := by
  unfold answer push Interlude.message
  rcases i.kind with h | h | h <;> simp [h]

theorem answerAll_interludes (a : Assembler) (is : List Interlude) (frames : List Frame) :
    a.answerAll (is.map Interlude.frame ++ frames) =
      ((a.answerAll frames).1, (is.map Interlude.message).map .ok ++ (a.answerAll frames).2) := by
  induction is with
  | nil => rfl
  | cons i is ih =>
    rw [List.map_cons, List.cons_append, answerAll, a.answer_interlude]
    dsimp only
    rw [ih]
    rfl

/-- The assembler waits for a fragment with that opcode, and has `acc` of the message. -/
def Awaits (a : Assembler) (limit : Nat) (kind : DataKind) (acc : Bytes) (opcode : Opcode) : Prop :=
  a = .new limit ∧ acc = [] ∧ opcode = kind.opcode ∨
    a = ⟨limit, some ⟨kind, acc⟩⟩ ∧ opcode = .continuation

theorem Awaits.answer (h : a.Awaits limit kind acc opcode) (fin : Bool) (payload : Bytes) :
    a.answer ⟨fin, opcode.code, true, payload⟩ =
      if limit < (acc ++ payload).length then
        (a, .error (.messageTooLarge (acc ++ payload).length limit))
      else if fin then (.new limit, .ok (some (kind.message (acc ++ payload))))
      else (⟨limit, some ⟨kind, acc ++ payload⟩⟩, .ok none) := by
  have hk : ∀ o : Opcode, (⟨fin, o.code, true, payload⟩ : Frame).kind? = some o :=
    Opcode.ofCode?_code
  rcases h with ⟨rfl, rfl, rfl⟩ | ⟨rfl, rfl⟩
  · have hp : (new limit).push ⟨fin, kind.opcode.code, true, payload⟩ =
        (new limit).start kind fin payload := by
      rw [push, hk]
      cases kind <;> rfl
    have hs : (new limit).start kind fin payload =
        if limit < payload.length then .error (.messageTooLarge payload.length limit)
        else if fin then .ok (.new limit, some (kind.message payload))
        else .ok (⟨limit, some ⟨kind, payload⟩⟩, none) := rfl
    rw [Assembler.answer, hp, hs, List.nil_append]
    split_ifs <;> rfl
  · rw [Assembler.answer, push, hk]
    dsimp only [resume, new]
    split_ifs <;> rfl

/-- Fragments that are not too long together are put together by the last of them. -/
theorem Awaits.answerAll_of_le (h : a.Awaits limit kind acc opcode) {f : Fragment}
    {fs : List Fragment}
    (hl : (acc ++ (f :: fs).flatMap Fragment.payload).length ≤ limit) :
    a.answerAll (Fragment.frames opcode (f :: fs)) = (.new limit,
      (Fragment.answers (kind.message (acc ++ (f :: fs).flatMap Fragment.payload)) (f :: fs)).map
        .ok) := by
  -- On the fragments: each is put behind those before it, and all of them are not too long.
  induction fs generalizing a acc opcode f with
  | nil =>
    have ha := h.answer true f.payload
    rw [List.flatMap_singleton] at hl
    rw [if_neg (Nat.not_lt_of_le hl), if_pos rfl] at ha
    rw [Fragment.frames, answerAll_interludes, answerAll, List.isEmpty_nil, ha]
    simp [Fragment.answers, answerAll, Fragment.frames]
  | cons g fs ih =>
    have he : acc ++ (f :: g :: fs).flatMap Fragment.payload =
        acc ++ f.payload ++ (g :: fs).flatMap Fragment.payload := by
      rw [List.flatMap_cons, List.append_assoc]
    rw [he] at hl ⊢
    have ha := h.answer false f.payload
    rw [if_neg (by rw [List.length_append] at hl; omega), if_neg Bool.false_ne_true] at ha
    have hg : Awaits ⟨limit, some ⟨kind, acc ++ f.payload⟩⟩ limit kind (acc ++ f.payload)
      .continuation := .inr ⟨rfl, rfl⟩
    rw [Fragment.frames, answerAll_interludes, answerAll, List.isEmpty_cons, ha]
    dsimp only
    rw [ih hg hl]
    simp [Fragment.answers]

/-- Of fragments that are too long together the one that makes them so is refused, and nothing but
pings is handed on before it. -/
theorem Awaits.answerAll_of_lt (h : a.Awaits limit kind acc opcode) (ha : acc.length ≤ limit)
    {fs : List Fragment} (hl : limit < (acc ++ fs.flatMap Fragment.payload).length) :
    ∃ before f after, fs = before ++ f :: after ∧
      (acc ++ before.flatMap Fragment.payload).length ≤ limit ∧
      limit < (acc ++ before.flatMap Fragment.payload ++ f.payload).length ∧
      (Fragment.pings before ++ f.before.map Interlude.message).map .ok ++
          [.error (.messageTooLarge
            (acc ++ before.flatMap Fragment.payload ++ f.payload).length limit)] <+:
        (a.answerAll (Fragment.frames opcode fs)).2 := by
  -- On the fragments: the first is the one that is too much, or it is put behind those before it.
  induction fs generalizing a acc opcode with
  | nil =>
    rw [List.flatMap_nil, List.append_nil] at hl
    omega
  | cons f fs ih =>
    by_cases hf : limit < (acc ++ f.payload).length
    · refine ⟨[], f, fs, rfl, by simpa using ha, by simpa using hf, ?_⟩
      have hr := h.answer fs.isEmpty f.payload
      rw [if_pos hf] at hr
      rw [Fragment.frames, answerAll_interludes, answerAll, hr]
      simp [Fragment.pings]
    · rw [List.flatMap_cons, ← List.append_assoc] at hl
      have hr := h.answer false f.payload
      rw [if_neg hf, if_neg Bool.false_ne_true] at hr
      have hg : Awaits ⟨limit, some ⟨kind, acc ++ f.payload⟩⟩ limit kind (acc ++ f.payload)
        .continuation := .inr ⟨rfl, rfl⟩
      obtain ⟨before, g, after, rfl, h1, h2, h3⟩ := ih hg (Nat.le_of_not_lt hf) hl
      have he : (before ++ g :: after).isEmpty = false := by simp
      refine ⟨f :: before, g, after, rfl, ?_, ?_, ?_⟩
      · rwa [List.flatMap_cons, ← List.append_assoc]
      · rwa [List.flatMap_cons, ← List.append_assoc]
      · rw [Fragment.frames, answerAll_interludes, answerAll, he, hr, List.flatMap_cons,
          ← List.append_assoc]
        simpa [Fragment.pings] using h3

end Assembler

namespace Fragment

/-- However a message is cut, the frames on the wire are its fragments and what comes between them.
If the assembler's limit allows it, pings are handed on where they come, the last fragment gives the
message, and nothing is left unfinished. If not, the first fragment with which it is too long is
refused with the length it then has, and only pings have been handed on before. No payload in memory
has `2 ^ 63` bytes. -/
theorem answerAll_fragments (kind : DataKind) (limit : Nat) (fs : List Fragment) (hfs : fs ≠ [])
    (hf : ∀ f ∈ fs, f.payload.length < 2 ^ 63) :
    Frame.split (wire kind.opcode fs) = (frames kind.opcode fs, [], none) ∧
      ((fs.flatMap payload).length ≤ limit →
        (Assembler.new limit).answerAll (frames kind.opcode fs) =
          (.new limit, (answers (kind.message (fs.flatMap payload)) fs).map .ok)) ∧
      (limit < (fs.flatMap payload).length → ∃ before f after, fs = before ++ f :: after ∧
        (before.flatMap payload).length ≤ limit ∧
        limit < (before.flatMap payload ++ f.payload).length ∧
        (pings before ++ f.before.map Interlude.message).map .ok ++
            [.error (.messageTooLarge (before.flatMap payload ++ f.payload).length limit)] <+:
          ((Assembler.new limit).answerAll (frames kind.opcode fs)).2) := by
  have hn : (Assembler.new limit).Awaits limit kind [] kind.opcode := .inl ⟨rfl, rfl, rfl⟩
  refine ⟨split_wire (by cases kind <;> rfl) hf, fun hl => ?_, fun hl => ?_⟩
  · obtain ⟨f, gs, rfl⟩ := List.exists_cons_of_ne_nil hfs
    exact hn.answerAll_of_le hl
  · exact hn.answerAll_of_lt (Nat.zero_le limit) hl

/-- Three bytes of text in three fragments. The second is empty and comes behind a ping and a frame
with an opcode that has no meaning. -/
def hiInThree : List Fragment :=
  [⟨[], [0x68, 0x69], ⟨1, 2, 3, 4⟩⟩,
    ⟨[.control .ping (.inl rfl) (some ⟨9, 9, 9, 9⟩) [7] (by decide),
      ⟨[0x83, 0x01, 0x05], ⟨true, 3, false, [5]⟩, by rfl, .inl rfl⟩], [], ⟨5, 6, 7, 8⟩⟩,
    ⟨[], [0x21], ⟨0, 0, 0, 0⟩⟩]

theorem answerAll_fragments_hi :
    Frame.split (wire .text hiInThree) = (frames .text hiInThree, [], none) ∧
      (Assembler.new 3).answerAll (frames .text hiInThree) =
        (.new 3, [.ok none, .ok (some (.ping [7])), .ok none, .ok none,
          .ok (some (.text [0x68, 0x69, 0x21]))]) ∧
      .error (.messageTooLarge 3 2) ∈ ((Assembler.new 2).answerAll (frames .text hiInThree)).2 := by
  have hn : hiInThree ≠ [] := List.cons_ne_nil _ _
  have hf : ∀ f ∈ hiInThree, f.payload.length < 2 ^ 63 := by decide
  refine ⟨(answerAll_fragments .text 3 hiInThree hn hf).1,
    (answerAll_fragments .text 3 hiInThree hn hf).2.1 (by decide), ?_⟩
  obtain ⟨before, f, after, he, -, hl, hp⟩ :=
    (answerAll_fragments .text 2 hiInThree hn hf).2.2 (by decide)
  have hw : (before.flatMap payload ++ f.payload).length + (after.flatMap payload).length = 3 := by
    rw [← List.length_append, List.append_assoc, ← List.flatMap_cons, ← List.flatMap_append, ← he]
    rfl
  rw [show (before.flatMap payload ++ f.payload).length = 3 by omega] at hp
  exact hp.subset (List.mem_append_right _ (List.mem_singleton_self _))

end Fragment

end SharedCanvas
