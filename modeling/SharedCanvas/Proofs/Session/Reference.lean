import SharedCanvas.Proofs.Frame.Split
import SharedCanvas.Proofs.Session.Greeting
import SharedCanvas.Room

namespace SharedCanvas

/-- The messages in the frames before the first that is refused. -/
def Assembler.assemble (a : Assembler) : List Frame → List Message × Except ProtocolError Assembler
  | [] => ([], .ok a)
  | frame :: frames =>
    match a.push frame with
    | .error e => ([], .error e)
    | .ok (a, message) =>
      let (messages, result) := a.assemble frames
      (message.toList ++ messages, result)

namespace Message

def isClose : Message → Bool
  | .close _ => true
  | _ => false

def pixels : Message → List Pixel
  | .binary payload => Pixel.ofRecords payload
  | .text payload => (Pixel.ofText payload).1
  | _ => []

def answer : Message → Bytes
  | .ping payload => Frame.encode .pong payload
  | .close _ => Frame.encode .close (Frame.closePayload Frame.closeNormal)
  | _ => []

end Message

namespace Session

/-- How far a session has come. -/
inductive Progress
  /-- The request has not come whole. -/
  | greeting (staged : Bytes)
  /-- Frames are read; the bytes of the next one, and the fragments of the next message. -/
  | reading (staged : Bytes) (assembler : Assembler)
  | over (reason : Reason)
deriving DecidableEq

structure Outcome where
  canvas : Canvas
  /-- What the peer was sent. -/
  received : Bytes
  progress : Progress

def Outcome.after (o : Outcome) (sent : Bytes) : Outcome :=
  { o with received := sent ++ o.received }

/-- What becomes of the bytes after the request. -/
def read (canvas : Canvas) (a : Assembler) (bs : Bytes) : Outcome :=
  let (frames, rest, fault) := Frame.split bs
  let (messages, result) := a.assemble frames
  let obeyed := messages.takeWhile fun m => !m.isClose
  let close := messages.find? Message.isClose
  { canvas := obeyed.foldl (fun c m => (c.paintAll m.pixels).1) canvas
    received := obeyed.flatMap Message.answer ++ close.elim [] Message.answer
    progress :=
      if close.isSome then .over .flushed
      else
        match result, fault with
        | .error e, _ => .over (.error (.protocol e))
        | .ok _, some e => .over (.error (.protocol e))
        | .ok a, none => .reading rest a }

/-- What becomes of all the bytes of a connection. -/
def reference (site : Option Site) (canvas : Canvas) (capacity : Nat) (bs : Bytes) : Outcome :=
  match Handshake.process bs with
  | .error e => ⟨canvas, [], .over (.error (.handshake e))⟩
  | .ok .incomplete => ⟨canvas, [], .greeting bs⟩
  | .ok (.plain request _) =>
    match site with
    | none => ⟨canvas, [], .over (.error .notWebSocket)⟩
    | some site => ⟨canvas, site.respond request, .over .flushed⟩
  | .ok (.upgraded response consumed) =>
    (read canvas (.new capacity) (bs.drop consumed)).after
      (response ++ Frame.encode .binary canvas.snapshot.encode)

variable {canvas : Canvas} {a a' : Assembler} {bs : Bytes} {frame : Frame} {n : Nat}

theorem Outcome.after_after (o : Outcome) (s t : Bytes) :
    (o.after t).after s = o.after (s ++ t) := by
  rw [after, after, after, List.append_assoc]

theorem Outcome.after_nil (o : Outcome) : o.after [] = o := rfl

theorem read_of_error {e : ProtocolError} (h : Frame.decode bs = .error e) :
    read canvas a bs = ⟨canvas, [], .over (.error (.protocol e))⟩ := by
  rw [read, Frame.split_of_error h]
  rfl

theorem read_of_incomplete (h : Frame.decode bs = .ok (.incomplete n)) :
    read canvas a bs = ⟨canvas, [], .reading bs a⟩ := by
  rw [read, Frame.split_of_incomplete h]
  rfl

theorem read_of_refused {e : ProtocolError} (h : Frame.decode bs = .ok (.complete frame n))
    (hp : a.push frame = .error e) :
    read canvas a bs = ⟨canvas, [], .over (.error (.protocol e))⟩ := by
  rw [read, Frame.split_of_complete h]
  simp only [Assembler.assemble, hp]
  rfl

theorem read_of_silent (h : Frame.decode bs = .ok (.complete frame n))
    (hp : a.push frame = .ok (a', none)) :
    read canvas a bs = read canvas a' (bs.drop n) := by
  rw [read, Frame.split_of_complete h]
  simp only [Assembler.assemble, hp]
  rfl

theorem read_of_close {m : Message} (h : Frame.decode bs = .ok (.complete frame n))
    (hp : a.push frame = .ok (a', some m)) (hm : m.isClose = true) :
    read canvas a bs = ⟨canvas, m.answer, .over .flushed⟩ := by
  rw [read, Frame.split_of_complete h]
  simp [Assembler.assemble, hp, hm]

theorem read_of_message {m : Message} (h : Frame.decode bs = .ok (.complete frame n))
    (hp : a.push frame = .ok (a', some m)) (hm : m.isClose = false) :
    read canvas a bs = (read (canvas.paintAll m.pixels).1 a' (bs.drop n)).after m.answer := by
  rw [read, Frame.split_of_complete h]
  simp [Assembler.assemble, hp, hm, read, Outcome.after]

/-- The ways in which the bytes can go on, frame by frame. -/
theorem frames_induction {motive : Assembler → Bytes → Prop}
    (error : ∀ a bs e, Frame.decode bs = .error e → motive a bs)
    (incomplete : ∀ a bs n, Frame.decode bs = .ok (.incomplete n) → motive a bs)
    (refused : ∀ a bs frame n e, Frame.decode bs = .ok (.complete frame n) →
      a.push frame = .error e → motive a bs)
    (silent : ∀ a a' bs frame n, Frame.decode bs = .ok (.complete frame n) →
      a.push frame = .ok (a', none) → motive a' (bs.drop n) → motive a bs)
    (close : ∀ a a' bs frame n m, Frame.decode bs = .ok (.complete frame n) →
      a.push frame = .ok (a', some m) → m.isClose = true → motive a bs)
    (message : ∀ a a' bs frame n m, Frame.decode bs = .ok (.complete frame n) →
      a.push frame = .ok (a', some m) → m.isClose = false → motive a' (bs.drop n) → motive a bs)
    (a : Assembler) (bs : Bytes) : motive a bs := by
  induction bs using Frame.split.induct generalizing a with
  | case1 bs e h => exact error a bs e h
  | case2 bs n h => exact incomplete a bs n h
  | case3 bs frame n h _ _ _ _ ih =>
    cases hp : a.push frame with
    | error e => exact refused a bs frame n e h hp
    | ok r =>
      obtain ⟨a', _ | m⟩ := r
      · exact silent a a' bs frame n h hp (ih a')
      · cases hm : m.isClose with
        | true => exact close a a' bs frame n m h hp hm
        | false => exact message a a' bs frame n m h hp hm (ih a')

theorem read_induction {motive : Canvas → Assembler → Bytes → Prop}
    (error : ∀ canvas a bs e, Frame.decode bs = .error e → motive canvas a bs)
    (incomplete : ∀ canvas a bs n, Frame.decode bs = .ok (.incomplete n) → motive canvas a bs)
    (refused : ∀ canvas a bs frame n e, Frame.decode bs = .ok (.complete frame n) →
      a.push frame = .error e → motive canvas a bs)
    (silent : ∀ canvas a a' bs frame n, Frame.decode bs = .ok (.complete frame n) →
      a.push frame = .ok (a', none) → motive canvas a' (bs.drop n) → motive canvas a bs)
    (close : ∀ canvas a a' bs frame n m, Frame.decode bs = .ok (.complete frame n) →
      a.push frame = .ok (a', some m) → m.isClose = true → motive canvas a bs)
    (message : ∀ canvas a a' bs frame n m, Frame.decode bs = .ok (.complete frame n) →
      a.push frame = .ok (a', some m) → m.isClose = false →
      motive (canvas.paintAll m.pixels).1 a' (bs.drop n) → motive canvas a bs)
    (canvas : Canvas) (a : Assembler) (bs : Bytes) : motive canvas a bs := by
  revert canvas
  induction a, bs using frames_induction with
  | error a bs e h => exact fun canvas => error canvas a bs e h
  | incomplete a bs n h => exact fun canvas => incomplete canvas a bs n h
  | refused a bs frame n e h hp => exact fun canvas => refused canvas a bs frame n e h hp
  | silent a a' bs frame n h hp ih =>
    exact fun canvas => silent canvas a a' bs frame n h hp (ih canvas)
  | close a a' bs frame n m h hp hm => exact fun canvas => close canvas a a' bs frame n m h hp hm
  | message a a' bs frame n m h hp hm ih =>
    exact fun canvas => message canvas a a' bs frame n m h hp hm (ih _)

theorem read_append_of_over {reason : Reason} (more : Bytes)
    (h : (read canvas a bs).progress = .over reason) :
    read canvas a (bs ++ more) = read canvas a bs := by
  -- The induction is on the frames of the earlier bytes: later ones change none that came whole.
  induction canvas, a, bs using read_induction with
  | error canvas a bs e hd =>
    rw [read_of_error hd, read_of_error (Frame.decode_append_of_error hd more)]
  | incomplete canvas a bs n hd =>
    rw [read_of_incomplete hd] at h
    simp at h
  | refused canvas a bs frame n e hd hp =>
    rw [read_of_refused hd hp, read_of_refused (Frame.decode_append_of_complete hd more) hp]
  | silent canvas a a' bs frame n hd hp ih =>
    rw [read_of_silent hd hp] at h ⊢
    rw [read_of_silent (Frame.decode_append_of_complete hd more) hp,
      Frame.drop_append_of_complete hd]
    exact ih h
  | close canvas a a' bs frame n m hd hp hm =>
    rw [read_of_close hd hp hm, read_of_close (Frame.decode_append_of_complete hd more) hp hm]
  | message canvas a a' bs frame n m hd hp hm ih =>
    rw [read_of_message hd hp hm] at h ⊢
    rw [read_of_message (Frame.decode_append_of_complete hd more) hp hm,
      Frame.drop_append_of_complete hd, ih h]

/-- Bytes that come later are read from where the earlier ones ended. -/
theorem read_append_of_reading {staged : Bytes} (more : Bytes)
    (h : (read canvas a bs).progress = .reading staged a') :
    read canvas a (bs ++ more) =
      (read (read canvas a bs).canvas a' (staged ++ more)).after (read canvas a bs).received := by
  -- As above. Only where the earlier bytes run out do the later ones come in.
  induction canvas, a, bs using read_induction with
  | error canvas a bs e hd =>
    rw [read_of_error hd] at h
    simp at h
  | incomplete canvas a bs n hd =>
    rw [read_of_incomplete hd] at h ⊢
    rw [Progress.reading.injEq] at h
    rw [h.1, h.2, Outcome.after_nil]
  | refused canvas a bs frame n e hd hp =>
    rw [read_of_refused hd hp] at h
    simp at h
  | silent canvas a a₁ bs frame n hd hp ih =>
    rw [read_of_silent hd hp] at h ⊢
    rw [read_of_silent (Frame.decode_append_of_complete hd more) hp,
      Frame.drop_append_of_complete hd]
    exact ih h
  | close canvas a a₁ bs frame n m hd hp hm =>
    rw [read_of_close hd hp hm] at h
    simp at h
  | message canvas a a₁ bs frame n m hd hp hm ih =>
    rw [read_of_message hd hp hm] at h ⊢
    rw [read_of_message (Frame.decode_append_of_complete hd more) hp hm,
      Frame.drop_append_of_complete hd, ih h, Outcome.after_after]
    rfl

theorem read_progress_ne_greeting (canvas : Canvas) (a : Assembler) (bs staged : Bytes) :
    (read canvas a bs).progress ≠ .greeting staged := by
  induction canvas, a, bs using read_induction with
  | error canvas a bs e hd => rw [read_of_error hd]; nofun
  | incomplete canvas a bs n hd => rw [read_of_incomplete hd]; nofun
  | refused canvas a bs frame n e hd hp => rw [read_of_refused hd hp]; nofun
  | silent canvas a a' bs frame n hd hp ih => rwa [read_of_silent hd hp]
  | close canvas a a' bs frame n m hd hp hm => rw [read_of_close hd hp hm]; nofun
  | message canvas a a' bs frame n m hd hp hm ih => rwa [read_of_message hd hp hm]

section
variable {site : Option Site} {capacity : Nat} {staged : Bytes}

theorem reference_of_greeting
    (h : (reference site canvas capacity bs).progress = .greeting staged) :
    reference site canvas capacity bs = ⟨canvas, [], .greeting bs⟩ := by
  unfold reference at h ⊢
  split at h
  · simp at h
  · rfl
  · split at h <;> simp at h
  · exact absurd h (read_progress_ne_greeting canvas (.new capacity) _ staged)

theorem reference_append_of_over {reason : Reason} (more : Bytes)
    (h : (reference site canvas capacity bs).progress = .over reason) :
    reference site canvas capacity (bs ++ more) = reference site canvas capacity bs := by
  have hi : Handshake.process bs ≠ .ok .incomplete := by
    intro hi
    rw [reference, hi] at h
    simp at h
  unfold reference at h ⊢
  rw [Handshake.process_append hi]
  split at h
  · rfl
  · simp at h
  · rfl
  · rename_i response consumed hp
    have hn : consumed ≤ bs.length := Handshake.consumed_le_length hp nofun
    rw [List.drop_append_of_le_length hn, read_append_of_over more h]

theorem reference_append_of_reading (more : Bytes)
    (h : (reference site canvas capacity bs).progress = .reading staged a) :
    reference site canvas capacity (bs ++ more) =
      (read (reference site canvas capacity bs).canvas a (staged ++ more)).after
        (reference site canvas capacity bs).received := by
  have hi : Handshake.process bs ≠ .ok .incomplete := by
    intro hi
    rw [reference, hi] at h
    simp at h
  unfold reference at h ⊢
  rw [Handshake.process_append hi]
  split at h
  · simp at h
  · simp at h
  · split at h <;> simp at h
  · rename_i response consumed hp
    have hn : consumed ≤ bs.length := Handshake.consumed_le_length hp nofun
    rw [List.drop_append_of_le_length hn, read_append_of_reading more h, Outcome.after_after]
    rfl

end

end Session
end SharedCanvas
