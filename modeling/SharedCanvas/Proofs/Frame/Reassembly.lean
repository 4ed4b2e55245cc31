import SharedCanvas.Message
import SharedCanvas.Proofs.Frame.Split

namespace SharedCanvas

namespace Frame

def Stop.fault? {ε : Type} : Stop ε → Option ProtocolError
  | .malformed e => some e
  | _ => none

theorem pump_eq_foldl {σ : Type} (step : σ → Frame → σ × Option Empty) (s : σ) (bs : Bytes) :
    (pump step s bs).1 = (split bs).1.foldl (fun s f => (step s f).1) s ∧
      (pump step s bs).2.1 = (split bs).2.1 ∧ (pump step s bs).2.2.fault? = (split bs).2.2 := by
  induction bs using split.induct generalizing s with
  | case1 bs e hd =>
    rw [pump_of_error hd, split_of_error hd]
    exact ⟨rfl, rfl, rfl⟩
  | case2 bs n hd =>
    rw [pump_of_incomplete hd, split_of_incomplete hd]
    exact ⟨rfl, rfl, rfl⟩
  | case3 bs frame n hd _ _ _ _ ih =>
    rcases hs : step s frame with ⟨s', _ | e⟩
    · rw [pump_of_step hd hs, split_of_complete hd, List.foldl_cons, hs]
      exact ih s'
    · exact e.elim

theorem length_split (bs : Bytes) :
    2 * (split bs).1.length + (split bs).2.1.length ≤ bs.length := by
  induction bs using split.induct with
  | case1 bs e hd =>
    rw [split_of_error hd]
    simp
  | case2 bs n hd =>
    rw [split_of_incomplete hd]
    simp
  | case3 bs frame n hd _ _ _ _ ih =>
    have hn := consumed_of_decode hd
    rw [split_of_complete hd, List.length_cons]
    rw [List.length_drop] at ih
    dsimp only
    omega

end Frame

namespace Assembler

def answer (a : Assembler) (frame : Frame) : Assembler × Except ProtocolError (Option Message) :=
  match a.push frame with
  | .error e => (a, .error e)
  | .ok (b, message) => (b, .ok message)

def answerAll (a : Assembler) :
    List Frame → Assembler × List (Except ProtocolError (Option Message))
  | [] => (a, [])
  | frame :: frames =>
    let (b, first) := a.answer frame
    let (c, rest) := b.answerAll frames
    (c, first :: rest)

theorem answerAll_append (a : Assembler) (fs gs : List Frame) : a.answerAll (fs ++ gs) =
    (((a.answerAll fs).1.answerAll gs).1,
      (a.answerAll fs).2 ++ ((a.answerAll fs).1.answerAll gs).2) := by
  induction fs generalizing a with
  | nil => rfl
  | cons f fs ih =>
    simp only [List.cons_append, answerAll, ih]

end Assembler

/-- A stream that is taken in chunk by chunk. -/
structure Reassembly where
  staged : Bytes
  assembler : Assembler
  frames : List Frame
  answers : List (Except ProtocolError (Option Message))
  /-- What is wrong with the stream; nothing is taken in after that. -/
  fault : Option ProtocolError

namespace Reassembly

def new (limit : Nat) : Reassembly := ⟨[], .new limit, [], [], none⟩

/-- A frame is handed to the assembler, which goes on whatever it answers. -/
def takeFrame (r : Reassembly) (frame : Frame) : Reassembly × Option Empty :=
  let (assembler, answer) := r.assembler.answer frame
  ({ r with assembler, frames := r.frames ++ [frame], answers := r.answers ++ [answer] }, none)

/-- Stages a chunk behind what is left over, and takes every whole frame off the front. -/
def feed (r : Reassembly) (chunk : Bytes) : Reassembly :=
  if r.fault.isSome then r
  else
    let (r, staged, stop) := Frame.pump takeFrame r (r.staged ++ chunk)
    { r with staged, fault := stop.fault? }

def feedAll (r : Reassembly) (chunks : List Bytes) : Reassembly := chunks.foldl feed r

variable {r : Reassembly} {limit : Nat} {bs : Bytes}

theorem foldl_takeFrame (r : Reassembly) (fs : List Frame) :
    fs.foldl (fun r f => (r.takeFrame f).1) r =
      { r with
        assembler := (r.assembler.answerAll fs).1
        frames := r.frames ++ fs
        answers := r.answers ++ (r.assembler.answerAll fs).2 } := by
  induction fs generalizing r with
  | nil => simp [Assembler.answerAll]
  | cons f fs ih =>
    rw [List.foldl_cons, ih]
    simp [takeFrame, Assembler.answerAll]

theorem feed_eq (h : r.fault = none) (chunk : Bytes) :
    r.feed chunk =
      { staged := (Frame.split (r.staged ++ chunk)).2.1
        assembler := (r.assembler.answerAll (Frame.split (r.staged ++ chunk)).1).1
        frames := r.frames ++ (Frame.split (r.staged ++ chunk)).1
        answers := r.answers ++ (r.assembler.answerAll (Frame.split (r.staged ++ chunk)).1).2
        fault := (Frame.split (r.staged ++ chunk)).2.2 } := by
  obtain ⟨h1, h2, h3⟩ := Frame.pump_eq_foldl takeFrame r (r.staged ++ chunk)
  rw [foldl_takeFrame] at h1
  rw [feed, h, Option.isSome_none, if_neg Bool.false_ne_true]
  dsimp only
  rw [h1, h2, h3]

theorem feed_of_fault {e : ProtocolError} (h : r.fault = some e) (chunk : Bytes) :
    r.feed chunk = r := by
  rw [feed, h, Option.isSome_some, if_pos rfl]

/-- The bytes `bs` have been taken in: the frames and the fault are those of all of them at once,
and the answers are the assembler's to these frames. -/
structure Covers (r : Reassembly) (limit : Nat) (bs : Bytes) : Prop where
  frames : r.frames = (Frame.split bs).1
  fault : r.fault = (Frame.split bs).2.2
  answers : (r.assembler, r.answers) = (Assembler.new limit).answerAll (Frame.split bs).1
  staged : r.fault = none → r.staged = (Frame.split bs).2.1

theorem covers_new (limit : Nat) : (new limit).Covers limit [] := by
  have h : Frame.split [] = ([], [], none) := Frame.split_of_incomplete rfl
  exact ⟨by rw [h]; rfl, by rw [h]; rfl, by rw [h]; rfl, fun _ => by rw [h]; rfl⟩

theorem Covers.feed (h : r.Covers limit bs) (chunk : Bytes) :
    (r.feed chunk).Covers limit (bs ++ chunk) := by
  have hf := h.fault
  cases he : (Frame.split bs).2.2 with
  | some e =>
    -- The fault is found at the same place, whatever comes after it.
    have hs := Frame.split_append_of_fault he chunk
    rw [he] at hf
    rw [feed_of_fault hf]
    refine ⟨?_, ?_, ?_, ?_⟩
    · rw [hs]
      exact h.frames
    · rw [hs]
      exact hf
    · rw [hs]
      exact h.answers
    · rw [hf]
      nofun
  | none =>
    rw [he] at hf
    have hs := Frame.split_append he chunk
    have ha := h.answers
    rw [← h.staged hf] at hs
    rw [feed_eq hf]
    refine ⟨?_, ?_, ?_, ?_⟩
    · rw [hs, h.frames]
    · rw [hs]
    · rw [hs, Assembler.answerAll_append, ← ha]
    · intro _
      rw [hs]

theorem Covers.feedAll (h : r.Covers limit bs) (chunks : List Bytes) :
    (r.feedAll chunks).Covers limit (bs ++ chunks.flatten) := by
  induction chunks generalizing r bs with
  | nil =>
    rw [List.flatten_nil, List.append_nil]
    exact h
  | cons chunk chunks ih =>
    rw [List.flatten_cons, ← List.append_assoc]
    exact ih (h.feed chunk)

/-- One turn of the loop over what is staged takes no more frames than there are pairs of bytes. -/
theorem length_feed (r : Reassembly) (chunk : Bytes) :
    2 * (r.feed chunk).frames.length + (r.feed chunk).staged.length ≤
      2 * r.frames.length + (r.staged.length + chunk.length) := by
  cases h : r.fault with
  | some e =>
    rw [feed_of_fault h]
    omega
  | none =>
    have hl := Frame.length_split (r.staged ++ chunk)
    rw [List.length_append] at hl
    rw [feed_eq h]
    dsimp only
    rw [List.length_append]
    omega

/-- However a stream is cut into chunks, it gives the same frames, the same answers of the
assembler, the same fault if any, and without one the same bytes left over. Every frame takes two
bytes or more off the front and none that is not there, so the loop over what is staged ends after
one turn for every two bytes at most. -/
theorem feedAll_eq_of_flatten_eq {chunks chunks' : List Bytes} (limit : Nat)
    (h : chunks.flatten = chunks'.flatten) :
    ((new limit).feedAll chunks).frames = ((new limit).feedAll chunks').frames ∧
    ((new limit).feedAll chunks).answers = ((new limit).feedAll chunks').answers ∧
    ((new limit).feedAll chunks).fault = ((new limit).feedAll chunks').fault ∧
    (((new limit).feedAll chunks).fault = none →
      ((new limit).feedAll chunks).staged = ((new limit).feedAll chunks').staged) ∧
    (∀ buf frame n, Frame.decode buf = .ok (.complete frame n) → 2 ≤ n ∧ n ≤ buf.length) ∧
    ∀ (r : Reassembly) (chunk : Bytes),
      2 * (r.feed chunk).frames.length + (r.feed chunk).staged.length ≤
        2 * r.frames.length + (r.staged.length + chunk.length) := by
  have hc := (covers_new limit).feedAll chunks
  have hc' := (covers_new limit).feedAll chunks'
  rw [List.nil_append] at hc hc'
  rw [h] at hc
  have hf : ((new limit).feedAll chunks).fault = ((new limit).feedAll chunks').fault :=
    hc.fault.trans hc'.fault.symm
  refine ⟨hc.frames.trans hc'.frames.symm, ?_, hf, ?_, ?_, length_feed⟩
  · exact congrArg Prod.snd (hc.answers.trans hc'.answers.symm)
  · intro hn
    exact (hc.staged hn).trans (hc'.staged (hf ▸ hn)).symm
  · exact fun _ _ _ => Frame.consumed_of_decode

/-- A text frame, the start of a longer one, and then a frame with a reserved bit, cut inside each
of them and not at all. -/
theorem feedAll_eq_of_flatten_eq_three_frames :
    let chunks : List Bytes := [[0x81], [0x01, 0x41, 0x01], [0x01, 0x42, 0xF1], [0x00, 0x80]]
    let whole : List Bytes := [[0x81, 0x01, 0x41, 0x01, 0x01, 0x42, 0xF1, 0x00, 0x80]]
    chunks.flatten = whole.flatten ∧
      ((new 8).feedAll chunks).frames = ((new 8).feedAll whole).frames ∧
      ((new 8).feedAll chunks).frames =
        [⟨true, 1, false, [0x41]⟩, ⟨false, 1, false, [0x42]⟩] ∧
      ((new 8).feedAll whole).answers = [.ok (some (.text [0x41])), .ok none] ∧
      ((new 8).feedAll whole).fault = some (.reservedBits 0x70) := by
  intro chunks whole
  have h : chunks.flatten = whole.flatten := rfl
  refine ⟨h, (feedAll_eq_of_flatten_eq 8 h).1, ?_, ?_, ?_⟩
  · decide +kernel
  · cbv
  · decide +kernel

end Reassembly
end SharedCanvas
