import SharedCanvas.Proofs.Canvas.Accepted
import SharedCanvas.Proofs.Session.Answers

namespace SharedCanvas

namespace Session

/-- The messages that the bytes finish, in order, and none after the first close. -/
def messages (a : Assembler) (bs : Bytes) : List Message :=
  let ms := (a.assemble (Frame.split bs).1).1
  ms.takeWhile (fun m => !m.isClose) ++ (ms.find? Message.isClose).toList

variable {a a' : Assembler} {bs : Bytes} {frame : Frame} {n : Nat} {m : Message}

theorem messages_of_error {e : ProtocolError} (h : Frame.decode bs = .error e) :
    messages a bs = [] := by
  rw [messages, Frame.split_of_error h]
  rfl

theorem messages_of_incomplete (h : Frame.decode bs = .ok (.incomplete n)) :
    messages a bs = [] := by
  rw [messages, Frame.split_of_incomplete h]
  rfl

theorem messages_of_refused {e : ProtocolError} (h : Frame.decode bs = .ok (.complete frame n))
    (hp : a.push frame = .error e) : messages a bs = [] := by
  rw [messages, Frame.split_of_complete h]
  simp only [Assembler.assemble, hp]
  rfl

theorem messages_of_silent (h : Frame.decode bs = .ok (.complete frame n))
    (hp : a.push frame = .ok (a', none)) : messages a bs = messages a' (bs.drop n) := by
  rw [messages, Frame.split_of_complete h]
  simp only [Assembler.assemble, hp]
  rfl

theorem messages_of_close (h : Frame.decode bs = .ok (.complete frame n))
    (hp : a.push frame = .ok (a', some m)) (hm : m.isClose = true) : messages a bs = [m] := by
  rw [messages, Frame.split_of_complete h]
  simp [Assembler.assemble, hp, hm]

theorem messages_of_message (h : Frame.decode bs = .ok (.complete frame n))
    (hp : a.push frame = .ok (a', some m)) (hm : m.isClose = false) :
    messages a bs = m :: messages a' (bs.drop n) := by
  rw [messages, Frame.split_of_complete h]
  simp [Assembler.assemble, hp, hm, messages]

end Session

def Connection.finishes (c : Connection) (bytes : Bytes) : List Message :=
  match c.phase with
  | .handshaking =>
    match Handshake.process (c.inbox.staged ++ bytes) with
    | .ok (.upgraded _ n) =>
      Session.messages c.inbox.assembler ((c.inbox.staged ++ bytes).drop n)
    | _ => []
  | .active => Session.messages c.inbox.assembler (c.inbox.staged ++ bytes)
  | .closing | .closed => []

namespace Visit
open Session

/-- Whatever the canvas shows, what is done paints these pixels, makes the connection this one and
comes to the same. Only the reports may differ. -/
def Acts {β : Type} (g : Visit → Visit × β) (c : Connection) (ps : List Pixel) (d : Connection)
    (b : β) : Prop :=
  ∀ canvas events, ∃ events', g ⟨canvas, c, events⟩ = (⟨(canvas.paintAll ps).1, d, events'⟩, b)

variable {c d : Connection} {v : Visit}

theorem acts_apply {β : Type} (c : Connection) (ps : List Pixel) (b : β) :
    Acts (fun v => (v.apply ps, b)) c ps c b := by
  intro canvas events
  dsimp only
  unfold apply
  split
  · rename_i h
    rw [List.isEmpty_iff.1 h]
    exact ⟨_, rfl⟩
  · exact ⟨_, rfl⟩

theorem Acts.report {β : Type} {g : Visit → Visit × β} {ps : List Pixel} {b : β}
    (h : Acts g c ps d b) (e : Event) : Acts (fun v => g (v.report e)) c ps d b :=
  fun canvas events => h canvas (events.push e)

theorem acts_reply (c : Connection) (bytes : Bytes) (next : Option Halt) :
    ∃ d halt, Acts (fun v => v.reply bytes next) c [] d halt ∧ d.inbox = c.inbox ∧
      (halt = next ∨ ∃ e, halt = some (.fail e)) := by
  have hi := (c.send_keeps bytes).2.2.2.1
  rcases hs : c.send bytes with ⟨d, _ | e⟩
  · rw [hs] at hi
    refine ⟨d, next, fun canvas events => ⟨events, ?_⟩, hi, .inl rfl⟩
    simp only [reply, send, hs]
    rfl
  · rw [hs] at hi
    refine ⟨d, some (.fail e), fun canvas events => ⟨events, ?_⟩, hi, .inr ⟨e, rfl⟩⟩
    simp only [reply, send, hs]
    rfl

theorem acts_obey (c : Connection) (m : Message) :
    ∃ d halt, Acts (fun v => v.obey m) c m.pixels d halt ∧
      d.inbox.assembler = c.inbox.assembler ∧
      (halt = (if m.isClose then some .leave else none) ∨ ∃ e, halt = some (.fail e)) := by
  cases m with
  | binary payload => exact ⟨c, none, acts_apply c _ none, rfl, .inl rfl⟩
  | text payload =>
    refine ⟨c, none, ?_, rfl, .inl rfl⟩
    have ha := acts_apply c (Pixel.ofText payload).1 (none : Option Halt)
    intro canvas events
    simp only [obey]
    split
    · exact ha.report (.badText c.id) canvas events
    · exact ha canvas events
  | ping payload =>
    obtain ⟨d, halt, ha, hi, hh⟩ := acts_reply c (Frame.encode .pong payload) none
    exact ⟨d, halt, ha, congrArg Inbox.assembler hi, hh⟩
  | close code =>
    obtain ⟨d, halt, ha, hi, hh⟩ :=
      acts_reply c (Frame.encode .close (Frame.closePayload Frame.closeNormal)) (some .leave)
    have ha := ha.report (.sentClose c.id code)
    refine ⟨if halt = some .leave then { d with inbox := { d.inbox with midUnit := false } } else d,
      halt, ?_, ?_, hh⟩
    · intro canvas events
      obtain ⟨events', he⟩ := ha canvas events
      refine ⟨events', ?_⟩
      dsimp only at he
      simp only [obey, he]
      split <;> rfl
    · rw [← hi]
      split <;> rfl

theorem acts_takeFrame_of_message {frame : Frame} {a : Assembler} {m : Message}
    (h : c.inbox.assembler.push frame = .ok (a, some m)) :
    ∃ d halt, Acts (fun v => v.takeFrame frame) c m.pixels d halt ∧ d.inbox.assembler = a ∧
      (halt = (if m.isClose then some .leave else none) ∨ ∃ e, halt = some (.fail e)) := by
  obtain ⟨d, halt, ha, hd, hh⟩ :=
    acts_obey { c with inbox := { c.inbox with assembler := a } } m
  refine ⟨d, halt, fun canvas events => ?_, hd, hh⟩
  dsimp only
  rw [takeFrame_of_message h]
  exact ha canvas events

/-- The messages that were obeyed of those that could be: all, unless the connection failed at
one. -/
def Obeys (ms all : List Message) (failed : Prop) : Prop := ms <+: all ∧ (ms = all ∨ failed)

theorem Obeys.cons {ms all : List Message} {failed : Prop} (h : Obeys ms all failed) (m : Message) :
    Obeys (m :: ms) (m :: all) failed :=
  ⟨(List.prefix_cons_inj m).2 h.1, h.2.imp_left (congrArg (m :: ·))⟩

theorem Obeys.imp {ms all : List Message} {failed failed' : Prop} (h : Obeys ms all failed)
    (hf : failed → failed') : Obeys ms all failed' := ⟨h.1, h.2.imp_right hf⟩

theorem Obeys.refl (ms : List Message) (failed : Prop) : Obeys ms ms failed :=
  ⟨List.prefix_rfl, .inl rfl⟩

theorem acts_pump (c : Connection) (bs : Bytes) :
    ∃ ms d b, Acts (fun v => Frame.pump takeFrame v bs) c (ms.flatMap Message.pixels) d b ∧
      Obeys ms (messages c.inbox.assembler bs) (∃ e, b.2 = .halted (.fail e)) := by
  generalize ha : c.inbox.assembler = a
  -- One case for all that the next frame can be. Only a message that was obeyed leads on.
  induction a, bs using frames_induction generalizing c with
  | error a bs e hd =>
    rw [messages_of_error hd]
    exact ⟨[], c, _, fun canvas events => ⟨events, Frame.pump_of_error hd⟩, .refl [] _⟩
  | incomplete a bs n hd =>
    rw [messages_of_incomplete hd]
    exact ⟨[], c, _, fun canvas events => ⟨events, Frame.pump_of_incomplete hd⟩, .refl [] _⟩
  | refused a bs frame n e hd hp =>
    rw [messages_of_refused hd hp]
    exact ⟨[], c, _, fun canvas events => ⟨events, Frame.pump_of_halt hd
      (takeFrame_of_refused (v := ⟨canvas, c, events⟩) (ha ▸ hp))⟩, .refl [] _⟩
  | silent a a' bs frame n hd hp ih =>
    rw [messages_of_silent hd hp]
    obtain ⟨ms, d, b, hacts, ho⟩ := ih { c with inbox := { c.inbox with assembler := a' } } rfl
    refine ⟨ms, d, b, fun canvas events => ?_, ho⟩
    dsimp only
    rw [Frame.pump_of_step hd (takeFrame_of_silent (v := ⟨canvas, c, events⟩) (ha ▸ hp))]
    exact hacts canvas events
  | close a a' bs frame n m hd hp hm =>
    rw [messages_of_close hd hp hm]
    obtain ⟨d, halt, hacts, -, hh⟩ := acts_takeFrame_of_message (ha ▸ hp)
    obtain ⟨halt, rfl⟩ : ∃ h, halt = some h := by
      rcases hh with rfl | ⟨e, rfl⟩
      · rw [if_pos hm]
        exact ⟨_, rfl⟩
      · exact ⟨_, rfl⟩
    refine ⟨[m], d, (bs.drop n, .halted halt), fun canvas events => ?_, .refl [m] _⟩
    obtain ⟨events', he⟩ := hacts canvas events
    refine ⟨events', ?_⟩
    rw [List.flatMap_singleton]
    exact Frame.pump_of_halt hd he
  | message a a' bs frame n m hd hp hm ih =>
    rw [messages_of_message hd hp hm]
    obtain ⟨d, halt, hacts, hda, hh⟩ := acts_takeFrame_of_message (ha ▸ hp)
    rw [if_neg (by rw [hm]; exact Bool.false_ne_true)] at hh
    rcases hh with rfl | ⟨e, rfl⟩
    · obtain ⟨ms, d', b, hacts', ho⟩ := ih d hda
      refine ⟨m :: ms, d', b, fun canvas events => ?_, ho.cons m⟩
      obtain ⟨events', he⟩ := hacts canvas events
      obtain ⟨events'', he'⟩ := hacts' (canvas.paintAll m.pixels).1 events'
      refine ⟨events'', ?_⟩
      rw [List.flatMap_cons, Canvas.paintAll_append, ← he']
      exact Frame.pump_of_step hd he
    · refine ⟨[m], d, (bs.drop n, .halted (.fail e)), fun canvas events => ?_,
        (List.prefix_cons_inj m).2 (List.nil_prefix), .inr ⟨e, rfl⟩⟩
      obtain ⟨events', he⟩ := hacts canvas events
      refine ⟨events', ?_⟩
      rw [List.flatMap_singleton]
      exact Frame.pump_of_halt hd he

theorem acts_takeFrames (c : Connection) :
    ∃ ms d halt, Acts takeFrames c (ms.flatMap Message.pixels) d halt ∧
      Obeys ms (messages c.inbox.assembler c.inbox.staged) (∃ e, halt = some (.fail e)) := by
  obtain ⟨ms, d, ⟨staged, stop⟩, ha, ho⟩ := acts_pump c c.inbox.staged
  have hpump : ∀ canvas events, ∃ events',
      Frame.pump takeFrame ⟨canvas, c, events⟩ c.inbox.staged =
        (⟨(canvas.paintAll (ms.flatMap Message.pixels)).1, d, events'⟩, staged, stop) := ha
  have hstaged : ∃ d' halt, Acts takeFrames c (ms.flatMap Message.pixels) d' halt ∧
      ((∃ e, stop = .halted (.fail e)) → ∃ e, halt = some (.fail e)) := by
    cases stop with
    | halted halt =>
      refine ⟨{ d with inbox := { d.inbox with staged } }, some halt, fun canvas events => ?_, ?_⟩
      · obtain ⟨events', he⟩ := hpump canvas events
        exact ⟨events', by rw [takeFrames, he]; rfl⟩
      · rintro ⟨e, he⟩
        exact ⟨e, congrArg some (Frame.Stop.halted.inj he)⟩
    | malformed e =>
      refine ⟨{ d with inbox := { d.inbox with staged } }, some (.fail (.protocol e)),
        fun canvas events => ?_, fun _ => ⟨_, rfl⟩⟩
      obtain ⟨events', he⟩ := hpump canvas events
      exact ⟨events', by rw [takeFrames, he]; rfl⟩
    | starved n =>
      refine ⟨{ d with inbox := { d.inbox with
          staged, midUnit := !staged.isEmpty || d.inbox.assembler.isPartial } }, none,
        fun canvas events => ?_, ?_⟩
      · obtain ⟨events', he⟩ := hpump canvas events
        exact ⟨events', by rw [takeFrames, he]; rfl⟩
      · rintro ⟨_, he⟩
        cases he
  obtain ⟨d', halt, hacts, hf⟩ := hstaged
  exact ⟨ms, d', halt, hacts, ho.imp hf⟩

theorem acts_receive (hp : c.phase = .active) (site : Option Site) (bytes : Bytes) :
    ∃ ms d halt, Acts (fun v => v.receive site bytes) c (ms.flatMap Message.pixels) d halt ∧
      Obeys ms (c.finishes bytes) (∃ e, halt = some (.fail e)) := by
  have hl : c.phase.isLeaving = false := by rw [hp]; rfl
  have hh : ¬ c.phase = .handshaking := by rw [hp]; nofun
  have hf : c.finishes bytes = messages c.inbox.assembler (c.inbox.staged ++ bytes) := by
    rw [Connection.finishes, hp]
  cases ha : c.inbox.append bytes with
  | error e =>
    refine ⟨[], c, some (.fail e), fun canvas events => ⟨events, ?_⟩, List.nil_prefix,
      .inr ⟨e, rfl⟩⟩
    simp only [receive, hl, ha]
    rfl
  | ok inbox =>
    obtain ⟨rfl⟩ : inbox = { c.inbox with staged := c.inbox.staged ++ bytes } := by
      unfold Inbox.append at ha
      dsimp only at ha
      split at ha
      · cases ha
      · exact (Except.ok.inj ha).symm
    obtain ⟨ms, d, halt, hacts, ho⟩ := acts_takeFrames
      { c with inbox := { c.inbox with staged := c.inbox.staged ++ bytes } }
    rw [hf]
    refine ⟨ms, d, halt, fun canvas events => ?_, ho⟩
    obtain ⟨events', he⟩ := hacts canvas events
    refine ⟨events', ?_⟩
    simp only [receive, hl, ha, hh]
    exact he

theorem obeys_takeFrames (v : Visit) :
    ∃ ms, v.takeFrames.1.canvas = (v.canvas.paintAll (ms.flatMap Message.pixels)).1 ∧
      Obeys ms (messages v.conn.inbox.assembler v.conn.inbox.staged)
        (∃ e, v.takeFrames.2 = some (.fail e)) := by
  obtain ⟨ms, d, halt, ha, ho⟩ := acts_takeFrames v.conn
  obtain ⟨events', he⟩ := ha v.canvas v.events
  refine ⟨ms, congrArg (fun r => r.1.canvas) he, ?_⟩
  rw [show v.takeFrames.2 = halt from congrArg Prod.snd he]
  exact ho

theorem canvas_reply (v : Visit) (bytes : Bytes) (next : Option Halt) :
    (v.reply bytes next).1.canvas = v.canvas := by
  unfold reply
  split <;> rename_i hs <;> exact congrArg (fun r => r.1.canvas) hs.symm

theorem canvas_sendPicture (v : Visit) : v.sendPicture.1.canvas = v.canvas := by
  unfold sendPicture
  split <;> rename_i hs <;> exact congrArg (fun r => r.1.canvas) hs.symm

/-- After the answer to an upgrade frames are read, unless the connection fails before. -/
theorem obeys_picture (v : Visit) :
    let result := match v.sendPicture with
      | (v, some e) => (v, some (Halt.fail e))
      | (v, none) => (v.report (.upgraded v.conn.id)).takeFrames
    ∃ ms, result.1.canvas = (v.canvas.paintAll (ms.flatMap Message.pixels)).1 ∧
      Obeys ms (messages v.conn.inbox.assembler v.conn.inbox.staged)
        (∃ e, result.2 = some (.fail e)) := by
  have hc := v.canvas_sendPicture
  have hi := v.sendPicture_spec.2.1
  rcases hs : v.sendPicture with ⟨w, _ | e⟩
  · rw [hs] at hc hi
    have h := (w.report (.upgraded w.conn.id)).obeys_takeFrames
    rw [← hc, ← hi]
    exact h
  · rw [hs] at hc
    exact ⟨[], hc, List.nil_prefix, .inr ⟨e, rfl⟩⟩

theorem obeys_greet (v : Visit) (site : Option Site) :
    ∃ ms, (v.greet site).1.canvas = (v.canvas.paintAll (ms.flatMap Message.pixels)).1 ∧
      Obeys ms
        (match Handshake.process v.conn.inbox.staged with
        | .ok (.upgraded _ n) => messages v.conn.inbox.assembler (v.conn.inbox.staged.drop n)
        | _ => [])
        (∃ e, (v.greet site).2 = some (.fail e)) := by
  unfold greet
  rcases Handshake.process v.conn.inbox.staged with e | (_ | ⟨response, n⟩ | ⟨request, n⟩)
  · exact ⟨[], rfl, .refl [] _⟩
  · exact ⟨[], rfl, .refl [] _⟩
  · -- The answer goes out before any frame is read, so if that fails nothing has been painted.
    obtain ⟨-, -, hi, -⟩ := (v.setStaged (v.conn.inbox.staged.drop n)).send_spec response
    rcases hs : (v.setStaged (v.conn.inbox.staged.drop n)).send response with ⟨w, _ | e⟩
    · rw [hs] at hi
      have hc : w.canvas = v.canvas := congrArg (fun r => r.1.canvas) hs.symm
      have h := w.obeys_picture
      rw [hc, hi] at h
      simp only [hs]
      exact h
    · have hc : w.canvas = v.canvas := congrArg (fun r => r.1.canvas) hs.symm
      simp only [hs]
      exact ⟨[], hc, List.nil_prefix, .inr ⟨e, rfl⟩⟩
  · refine ⟨[], ?_, .refl [] _⟩
    dsimp only
    unfold serve
    split
    · rfl
    · exact canvas_reply _ _ _

/-- Whatever bytes come, the canvas is painted with messages that they finish. -/
theorem obeys_receive (v : Visit) (site : Option Site) (bytes : Bytes) :
    ∃ ms, (v.receive site bytes).1.canvas = (v.canvas.paintAll (ms.flatMap Message.pixels)).1 ∧
      Obeys ms (v.conn.finishes bytes) (∃ e, (v.receive site bytes).2 = some (.fail e)) := by
  cases hp : v.conn.phase with
  | handshaking =>
    rw [Connection.finishes, hp]
    rcases v.receive_cases site (by rw [hp]; rfl) bytes with ⟨-, e, h⟩ | h
    · rw [h]
      exact ⟨[], rfl, List.nil_prefix, .inr ⟨e, rfl⟩⟩
    · rw [h, if_pos hp]
      exact (v.setStaged (v.conn.inbox.staged ++ bytes)).obeys_greet site
  | active =>
    obtain ⟨ms, d, halt, ha, ho⟩ := acts_receive hp site bytes
    obtain ⟨events', he⟩ := ha v.canvas v.events
    refine ⟨ms, congrArg (fun r => r.1.canvas) he, ?_⟩
    rw [show (v.receive site bytes).2 = halt from congrArg Prod.snd he]
    exact ho
  | closing | closed =>
    have hr : v.receive site bytes = (v, none) := by
      rw [receive, hp]
      rfl
    rw [hr, Connection.finishes, hp]
    exact ⟨[], rfl, .refl [] _⟩

end Visit
end SharedCanvas
