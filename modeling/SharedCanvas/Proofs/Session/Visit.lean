import SharedCanvas.Proofs.Connection.Given
import SharedCanvas.Proofs.Session.Greeting
import SharedCanvas.Proofs.Session.Reference

namespace SharedCanvas

namespace Connection

/-- Nothing waits for the socket, and it takes everything. -/
structure IsIdle (c : Connection) : Prop where
  socket : c.socket.IsReady
  outbox : c.outbox.frames = []

def deliver (c : Connection) (bytes : Bytes) : Connection :=
  { c with socket := { c.socket with received := c.socket.received ++ bytes } }

/-- The peer has got the bytes; nothing else has changed but what is known of its own. -/
def Delivers (c : Connection) (bytes : Bytes) (d : Connection) : Prop :=
  { d with inbox := c.inbox } = c.deliver bytes

variable {c d e : Connection} {s t : Bytes}

theorem Delivers.idle (h : c.Delivers s d) (hc : c.IsIdle) : d.IsIdle := by
  have hs : d.socket = (c.deliver s).socket := (congrArg Connection.socket h :)
  have ho : d.outbox = c.outbox := (congrArg Connection.outbox h :)
  refine ⟨?_, ho ▸ hc.outbox⟩
  rw [hs]
  exact ⟨hc.socket.script, hc.socket.standing, hc.socket.shut⟩

theorem Delivers.id (h : c.Delivers s d) : d.id = c.id := (congrArg Connection.id h :)

theorem Delivers.phase (h : c.Delivers s d) : d.phase = c.phase := (congrArg Connection.phase h :)

theorem Delivers.listed (h : c.Delivers s d) : d.listed = c.listed :=
  (congrArg Connection.listed h :)

theorem Delivers.received (h : c.Delivers s d) : d.socket.received = c.socket.received ++ s :=
  (congrArg (fun c => c.socket.received) h :)

theorem Delivers.trans (h : c.Delivers s d) (h' : d.Delivers t e) : c.Delivers (s ++ t) e := by
  have he := congrArg (fun x : Connection => { x with inbox := c.inbox }) h'
  have hd := congrArg (fun x : Connection => x.deliver t) h
  rw [Delivers, deliver, ← List.append_assoc]
  exact he.trans hd

theorem delivers_deliver (c : Connection) (bytes : Bytes) :
    c.Delivers bytes (c.deliver bytes) := rfl

theorem delivers_inbox (c : Connection) (inbox : Inbox) : c.Delivers [] { c with inbox } := by
  rw [Delivers, deliver, List.append_nil]

/-- The connection waits for more bytes where the session stands. -/
def Awaits (c : Connection) (capacity : Nat) : Session.Progress → Prop
  | .greeting staged =>
    c.phase = .handshaking ∧ c.inbox.staged = staged ∧ c.inbox.assembler = .new capacity
  | .reading staged a => c.phase = .active ∧ c.inbox.staged = staged ∧ c.inbox.assembler = a
  | .over _ => False

theorem IsIdle.send_eq (h : c.IsIdle) (hp : c.phase.isLeaving = false) (bytes : Bytes) :
    c.send bytes = if bytes.length ≤ c.outbox.limit then (c.deliver bytes, none)
      else (c, some (.slowConsumer bytes.length c.outbox.limit)) := by
  by_cases hb : bytes = []
  · rw [hb, if_pos (show ([] : Bytes).length ≤ _ from Nat.zero_le _), deliver, List.append_nil]
    rfl
  · split
    · rename_i hl
      exact send_of_isReady h.socket h.outbox hp hb hl
    · rename_i hl
      exact send_of_lt hp h.outbox (Nat.lt_of_not_le hl)

theorem IsIdle.send (h : c.IsIdle) (hp : c.phase.isLeaving = false) (bytes : Bytes) :
    c.send bytes = (c.deliver bytes, none) ∨
      ∃ n m, c.send bytes = (c, some (.slowConsumer n m)) := by
  rw [h.send_eq hp]
  split
  · exact .inl rfl
  · exact .inr ⟨_, _, rfl⟩

end Connection

def SessionError.isOverrun : SessionError → Bool
  | .bufferOverflow .. | .slowConsumer .. => true
  | _ => false

def Halt.isOverrun : Halt → Bool
  | .leave => false
  | .fail e => e.isOverrun

def Halt.reason : Halt → Reason
  | .leave => .flushed
  | .fail e => .error e

def Frame.Stop.reason? : Frame.Stop Halt → Option Reason
  | .starved _ => none
  | .malformed e => some (.error (.protocol e))
  | .halted halt => some halt.reason

namespace Visit
open Session Connection

def Overruns (halt : Option Halt) : Prop := ∃ h, halt = some h ∧ h.isOverrun = true

variable {v v' : Visit} {frame : Frame} {a : Assembler}

theorem reply_cases (h : v.conn.IsIdle) (hp : v.conn.phase.isLeaving = false) (bytes : Bytes)
    (next : Option Halt) : Overruns (v.reply bytes next).2 ∨
      v.reply bytes next = ({ v with conn := v.conn.deliver bytes }, next) := by
  rw [reply, Visit.send]
  rcases h.send hp bytes with hs | ⟨n, m, hs⟩
  · right
    rw [hs]
  · left
    rw [hs]
    exact ⟨_, rfl, rfl⟩

theorem apply_eq (v : Visit) (ps : List Pixel) :
    (v.apply ps).canvas = (v.canvas.paintAll ps).1 ∧ (v.apply ps).conn = v.conn := by
  unfold apply
  split
  · rename_i h
    rw [List.isEmpty_iff.1 h]
    exact ⟨rfl, rfl⟩
  · exact ⟨rfl, rfl⟩

theorem obey_cases (h : v.conn.IsIdle) (hp : v.conn.phase.isLeaving = false) (m : Message) :
    Overruns (v.obey m).2 ∨
      (v.obey m).1.canvas = (v.canvas.paintAll m.pixels).1 ∧
      v.conn.Delivers m.answer (v.obey m).1.conn ∧
      (v.obey m).1.conn.inbox.assembler = v.conn.inbox.assembler ∧
      (v.obey m).2 = if m.isClose then some .leave else none := by
  cases m with
  | binary payload =>
    right
    obtain ⟨hc, hn⟩ := v.apply_eq (Pixel.ofRecords payload)
    rw [obey]
    exact ⟨hc, by rw [hn]; exact v.conn.delivers_inbox _, by rw [hn], rfl⟩
  | text payload =>
    right
    rw [obey]
    dsimp only
    split
    · obtain ⟨hc, hn⟩ := (v.report (.badText v.conn.id)).apply_eq (Pixel.ofText payload).1
      exact ⟨hc, by rw [hn]; exact v.conn.delivers_inbox _, by rw [hn]; rfl, rfl⟩
    · obtain ⟨hc, hn⟩ := v.apply_eq (Pixel.ofText payload).1
      exact ⟨hc, by rw [hn]; exact v.conn.delivers_inbox _, by rw [hn], rfl⟩
  | ping payload =>
    rw [obey]
    refine (reply_cases h hp (Frame.encode .pong payload) none).imp_right ?_
    intro hr
    rw [hr]
    exact ⟨rfl, delivers_deliver _ _, rfl, rfl⟩
  | close code =>
    rw [obey]
    have hr := reply_cases (v := v.report (.sentClose v.conn.id code)) h hp
      (Frame.encode .close (Frame.closePayload Frame.closeNormal)) (some .leave)
    dsimp only
    rcases hr with ho | hr
    · exact .inl ho
    · right
      rw [hr]
      dsimp only
      rw [if_pos rfl]
      exact ⟨rfl, rfl, rfl, rfl⟩

theorem takeFrame_of_refused {e : ProtocolError}
    (h : v.conn.inbox.assembler.push frame = .error e) :
    v.takeFrame frame = (v, some (.fail (.protocol e))) := by
  rw [takeFrame, h]

theorem takeFrame_of_silent (h : v.conn.inbox.assembler.push frame = .ok (a, none)) :
    v.takeFrame frame = (v.setAssembler a, none) := by
  rw [takeFrame, h]

theorem takeFrame_of_message {m : Message}
    (h : v.conn.inbox.assembler.push frame = .ok (a, some m)) :
    v.takeFrame frame = (v.setAssembler a).obey m := by
  rw [takeFrame, h]

/-- What taking frames has come to, and what was expected of it. -/
structure Reads (v : Visit) (o : Outcome) (r : Visit × Bytes × Frame.Stop Halt) : Prop where
  canvas : r.1.canvas = o.canvas
  conn : v.conn.Delivers o.received r.1.conn
  progress : match o.progress with
    | .greeting _ => False
    | .reading staged a => r.2.1 = staged ∧ r.1.conn.inbox.assembler = a ∧ r.2.2.reason? = none
    | .over reason => r.2.2.reason? = some reason

theorem Reads.after {o : Outcome} {r : Visit × Bytes × Frame.Stop Halt} {bytes : Bytes}
    (h : Reads v' o r) (hc : v.conn.Delivers bytes v'.conn) : Reads v (o.after bytes) r :=
  ⟨h.canvas, hc.trans h.conn, h.progress⟩

/-- Frame by frame the visit does what the reference says of all of them. -/
theorem pump_takeFrame (v : Visit) (bs : Bytes) (h : v.conn.IsIdle)
    (hp : v.conn.phase.isLeaving = false) :
    (∃ halt, (Frame.pump takeFrame v bs).2.2 = .halted halt ∧ halt.isOverrun = true) ∨
      Reads v (read v.canvas v.conn.inbox.assembler bs) (Frame.pump takeFrame v bs) := by
  generalize hc : v.canvas = canvas
  generalize ha : v.conn.inbox.assembler = a
  -- The visit changes from frame to frame, so it is generalised; its canvas and its assembler are
  -- those of the reference all along.
  induction canvas, a, bs using read_induction generalizing v with
  | error canvas a bs e hd =>
    right
    rw [read_of_error hd, Frame.pump_of_error hd]
    exact ⟨hc, delivers_inbox _ _, rfl⟩
  | incomplete canvas a bs n hd =>
    right
    rw [read_of_incomplete hd, Frame.pump_of_incomplete hd]
    exact ⟨hc, delivers_inbox _ _, rfl, ha, rfl⟩
  | refused canvas a bs frame n e hd hpush =>
    right
    rw [read_of_refused hd hpush, Frame.pump_of_halt hd (takeFrame_of_refused (ha ▸ hpush))]
    exact ⟨hc, delivers_inbox _ _, rfl⟩
  | silent canvas a a' bs frame n hd hpush ih =>
    rw [read_of_silent hd hpush, Frame.pump_of_step hd (takeFrame_of_silent (ha ▸ hpush))]
    have hn : v.conn.Delivers [] (v.setAssembler a').conn := delivers_inbox _ _
    refine (ih (v.setAssembler a') (hn.idle h) hp hc rfl).imp_right ?_
    exact fun hr => hr.after hn
  | close canvas a a' bs frame n m hd hpush hm =>
    have hn : v.conn.Delivers [] (v.setAssembler a').conn := delivers_inbox _ _
    have hf := takeFrame_of_message (v := v) (ha ▸ hpush)
    rcases obey_cases (v := v.setAssembler a') (hn.idle h) hp m with ⟨halt, ho, hh⟩
      | ⟨h1, h2, _, h4⟩
    · left
      rw [Frame.pump_of_halt hd (hf.trans (Prod.ext rfl ho))]
      exact ⟨halt, rfl, hh⟩
    · right
      rw [if_pos hm] at h4
      rw [read_of_close hd hpush hm, Frame.pump_of_halt hd (hf.trans (Prod.ext rfl h4))]
      refine ⟨?_, hn.trans h2, rfl⟩
      cases m with
      | close code => exact h1.trans hc
      | _ => simp [Message.isClose] at hm
  | message canvas a a' bs frame n m hd hpush hm ih =>
    have hn : v.conn.Delivers [] (v.setAssembler a').conn := delivers_inbox _ _
    have hf := takeFrame_of_message (v := v) (ha ▸ hpush)
    rcases obey_cases (v := v.setAssembler a') (hn.idle h) hp m with ⟨halt, ho, hh⟩
      | ⟨h1, h2, h3, h4⟩
    · left
      rw [Frame.pump_of_halt hd (hf.trans (Prod.ext rfl ho))]
      exact ⟨halt, rfl, hh⟩
    · rw [hm] at h4
      rw [read_of_message hd hpush hm, Frame.pump_of_step hd (hf.trans (Prod.ext rfl h4))]
      have hn' := hn.trans h2
      have hcv : ((v.setAssembler a').obey m).1.canvas = (canvas.paintAll m.pixels).1 := by
        rw [h1, ← hc]
        rfl
      refine (ih ((v.setAssembler a').obey m).1 (hn'.idle h) (hn'.phase ▸ hp) hcv h3).imp_right ?_
      exact fun hr => hr.after hn'

/-- What a visit that starts with `c` has come to, and what was expected of the session. -/
structure Comes (c : Connection) (capacity : Nat) (o : Outcome) (r : Visit × Option Halt) :
    Prop where
  canvas : r.1.canvas = o.canvas
  idle : r.1.conn.IsIdle
  id : r.1.conn.id = c.id
  listed : r.1.conn.listed = c.listed
  received : r.1.conn.socket.received = o.received
  progress : r.1.conn.Awaits capacity o.progress ∧ r.2 = none ∨
    ∃ reason, o.progress = .over reason ∧ r.2.map Halt.reason = some reason

theorem Comes.congr {c d : Connection} {capacity : Nat} {o : Outcome} {r : Visit × Option Halt}
    (h : Comes d capacity o r) (hi : d.id = c.id) (hl : d.listed = c.listed) :
    Comes c capacity o r :=
  ⟨h.canvas, h.idle, h.id.trans hi, h.listed.trans hl, h.received, h.progress⟩

theorem comes_of_halt {c : Connection} {capacity : Nat} {o : Outcome} {reason : Reason}
    {halt : Halt} {bytes : Bytes} (hc : v'.canvas = o.canvas) (h : c.IsIdle)
    (hd : c.Delivers bytes v'.conn)
    (hr : c.socket.received ++ bytes = o.received) (ho : o.progress = .over reason)
    (hh : halt.reason = reason) : Comes c capacity o (v', some halt) :=
  ⟨hc, hd.idle h, hd.id, hd.listed, hd.received.trans hr, .inr ⟨reason, ho, congrArg some hh⟩⟩

theorem takeFrames_of_nil (h : v.conn.inbox.staged = []) :
    v.takeFrames = ((v.setStaged []).setMidUnit v.conn.inbox.assembler.isPartial, none) := by
  rw [takeFrames, h, Frame.pump_of_incomplete (n := 2) rfl]
  rfl

theorem takeFrames_comes (h : v.conn.IsIdle) (hp : v.conn.phase = .active) (capacity : Nat) :
    Overruns v.takeFrames.2 ∨ Comes v.conn capacity
      ((read v.canvas v.conn.inbox.assembler v.conn.inbox.staged).after v.conn.socket.received)
      v.takeFrames := by
  have hpump := pump_takeFrame v v.conn.inbox.staged h (by rw [hp]; rfl)
  unfold takeFrames
  generalize read v.canvas v.conn.inbox.assembler v.conn.inbox.staged = o at hpump
  rcases hpe : Frame.pump takeFrame v v.conn.inbox.staged with ⟨v', staged, stop⟩
  rw [hpe] at hpump
  rcases hpump with ⟨halt, rfl, ho⟩ | ⟨hcanvas, hconn, hprog⟩
  · exact .inl ⟨halt, rfl, ho⟩
  right
  cases stop with
  | halted halt =>
    rcases ho : o.progress with s | ⟨s, a⟩ | reason
    · simp [ho] at hprog
    · simp [ho, Frame.Stop.reason?] at hprog
    · rw [ho] at hprog
      exact comes_of_halt hcanvas h hconn rfl ho (Option.some.inj hprog)
  | malformed e =>
    rcases ho : o.progress with s | ⟨s, a⟩ | reason
    · simp [ho] at hprog
    · simp [ho, Frame.Stop.reason?] at hprog
    · rw [ho] at hprog
      exact comes_of_halt hcanvas h hconn rfl ho (Option.some.inj hprog)
  | starved n =>
    rcases ho : o.progress with s | ⟨s, a⟩ | reason
    · simp [ho] at hprog
    · rw [ho] at hprog
      have hi := hconn.idle h
      refine ⟨hcanvas, ⟨hi.socket, hi.outbox⟩, hconn.id, hconn.listed, hconn.received,
        .inl ⟨?_, rfl⟩⟩
      change Connection.Awaits _ capacity o.progress
      rw [ho]
      exact ⟨hconn.phase.trans hp, hprog.1, hprog.2.1⟩
    · simp [ho, Frame.Stop.reason?] at hprog

theorem sendPicture_cases (h : v.conn.IsIdle) (hp : v.conn.phase = .handshaking) :
    (∃ n m, v.sendPicture.2 = some (.slowConsumer n m)) ∨ v.sendPicture =
      ({ v with conn := { v.conn.deliver (Frame.encode .binary v.canvas.snapshot.encode) with
          phase := .active } }, none) := by
  unfold sendPicture Visit.send
  rcases h.send (by rw [hp]; rfl) (Frame.encode .binary v.canvas.snapshot.encode) with hs
    | ⟨n, m, hs⟩
  · right
    rw [hs]
    dsimp only
    rw [advance, if_pos (by rw [deliver, hp]; decide)]
  · left
    rw [hs]
    exact ⟨n, m, rfl⟩

theorem sendPicture_of_isIdle (hi : v.conn.IsIdle) (hp : v.conn.phase = .handshaking)
    (hl : (Frame.encode .binary v.canvas.snapshot.encode).length ≤ v.conn.outbox.limit) :
    v.sendPicture =
      ({ v with conn := { v.conn.deliver (Frame.encode .binary v.canvas.snapshot.encode) with
          phase := .active } }, none) := by
  rcases sendPicture_cases hi hp with ⟨n, m, h⟩ | h
  · rw [sendPicture, Visit.send, hi.send_eq (by rw [hp]; rfl), if_pos hl] at h
    simp at h
  · exact h

theorem greet_of_upgraded {response : Bytes} {n : Nat} (site : Option Site) (hi : v.conn.IsIdle)
    (hp : v.conn.phase = .handshaking)
    (hv : Handshake.process v.conn.inbox.staged = .ok (.upgraded response n))
    (hl : response.length ≤ v.conn.outbox.limit)
    (hl' : (Frame.encode .binary v.canvas.snapshot.encode).length ≤ v.conn.outbox.limit) :
    v.greet site = takeFrames ⟨v.canvas, { v.conn with
        phase := .active
        inbox := { v.conn.inbox with staged := v.conn.inbox.staged.drop n }
        socket := ((v.conn.deliver response).deliver
          (Frame.encode .binary v.canvas.snapshot.encode)).socket },
      v.events.push (.upgraded v.conn.id)⟩ := by
  let w := v.setStaged (v.conn.inbox.staged.drop n)
  have hd : w.send response = ({ w with conn := w.conn.deliver response }, none) := by
    rw [Visit.send, IsIdle.send_eq (c := w.conn) ⟨hi.socket, hi.outbox⟩
      (show v.conn.phase.isLeaving = false by rw [hp]; rfl),
      if_pos (show response.length ≤ w.conn.outbox.limit from hl)]
  have hpic := sendPicture_of_isIdle (v := { w with conn := w.conn.deliver response })
    ⟨⟨hi.socket.script, hi.socket.standing, hi.socket.shut⟩, hi.outbox⟩ hp hl'
  rw [greet, hv]
  dsimp only
  rw [hd]
  dsimp only
  rw [hpic]
  rfl

theorem picture_comes (h : v.conn.IsIdle) (hp : v.conn.phase = .handshaking) (capacity : Nat) :
    let result := match v.sendPicture with
      | (v, some e) => (v, some (.fail e))
      | (v, none) => (v.report (.upgraded v.conn.id)).takeFrames
    Overruns result.2 ∨ Comes v.conn capacity
      ((read v.canvas v.conn.inbox.assembler v.conn.inbox.staged).after
        (v.conn.socket.received ++ Frame.encode .binary v.canvas.snapshot.encode)) result := by
  rcases hs : v.sendPicture with ⟨v', _ | e⟩
  · dsimp only
    rcases sendPicture_cases h hp with ⟨n, m, he⟩ | he
    · rw [hs] at he
      simp at he
    · rw [hs, Prod.mk.injEq] at he
      have hi : v'.conn.IsIdle :=
        he.1 ▸ ⟨⟨h.socket.script, h.socket.standing, h.socket.shut⟩, h.outbox⟩
      have hpa : v'.conn.phase = .active := by rw [he.1]
      refine (takeFrames_comes (v := v'.report (.upgraded v'.conn.id)) hi hpa capacity).imp_right ?_
      rw [he.1]
      exact fun hc => hc.congr rfl rfl
  · left
    rcases sendPicture_cases h hp with ⟨n, m, he⟩ | he
    · rw [hs, Option.some.injEq] at he
      exact ⟨_, rfl, by rw [he]; rfl⟩
    · rw [hs] at he
      simp at he

theorem upgrade_comes (h : v.conn.IsIdle) (hp : v.conn.phase = .handshaking) (response : Bytes)
    (capacity : Nat) :
    let result := match v.send response with
      | (v, some e) => (v, some (.fail e))
      | (v, none) =>
        match v.sendPicture with
        | (v, some e) => (v, some (.fail e))
        | (v, none) => (v.report (.upgraded v.conn.id)).takeFrames
    Overruns result.2 ∨ Comes v.conn capacity
      ((read v.canvas v.conn.inbox.assembler v.conn.inbox.staged).after
        (v.conn.socket.received ++ response ++ Frame.encode .binary v.canvas.snapshot.encode))
      result := by
  unfold Visit.send
  rcases h.send (by rw [hp]; rfl) response with hs | ⟨n, m, hs⟩
  · rw [hs]
    have hd := v.conn.delivers_deliver response
    have hu := picture_comes (v := ⟨v.canvas, v.conn.deliver response, v.events⟩) (hd.idle h) hp
      capacity
    exact hu.imp_right fun hc => hc.congr rfl rfl
  · rw [hs]
    exact .inl ⟨_, rfl, rfl⟩

theorem serve_comes (h : v.conn.IsIdle) (hl : v.conn.phase.isLeaving = false)
    (hr : v.conn.socket.received = []) (capacity : Nat) (site : Option Site) (request : Request) :
    Overruns (v.serve site request).2 ∨ Comes v.conn capacity
      (match site with
        | none => ⟨v.canvas, [], .over (.error .notWebSocket)⟩
        | some site => ⟨v.canvas, site.respond request, .over .flushed⟩)
          (v.serve site request) := by
  cases site with
  | none => exact .inr (comes_of_halt rfl h (delivers_inbox _ _) (by rw [hr]; rfl) rfl rfl)
  | some site =>
    unfold serve
    have hrep := reply_cases (v := v.report
      (.served v.conn.id request.method request.path (site.respond request).length)) h hl
      (site.respond request) (some .leave)
    refine hrep.imp_right ?_
    intro hrep
    dsimp only
    rw [hrep]
    exact comes_of_halt rfl h (delivers_deliver _ _) (by rw [hr]; rfl) rfl rfl

theorem greet_comes (site : Option Site) {capacity : Nat} (h : v.conn.IsIdle)
    (hp : v.conn.phase = .handshaking) (ha : v.conn.inbox.assembler = .new capacity)
    (hr : v.conn.socket.received = []) : Overruns (v.greet site).2 ∨
      Comes v.conn capacity (reference site v.canvas capacity v.conn.inbox.staged)
        (v.greet site) := by
  have hl : v.conn.phase.isLeaving = false := by rw [hp]; rfl
  have hnil : v.conn.socket.received ++ [] = [] := by rw [hr]; rfl
  have hi : ∀ inbox, Connection.IsIdle { v.conn with inbox } := fun _ => ⟨h.socket, h.outbox⟩
  unfold greet reference
  cases hv : Handshake.process v.conn.inbox.staged with
  | error e => exact .inr (comes_of_halt rfl h (delivers_inbox _ _) hnil rfl rfl)
  | ok verdict =>
    cases verdict with
    | incomplete => exact .inr ⟨rfl, hi _, rfl, rfl, hr, .inl ⟨⟨hp, rfl, ha⟩, rfl⟩⟩
    | plain request consumed =>
      dsimp only
      have hs := serve_comes
        (v := (v.setStaged (v.conn.inbox.staged.drop consumed)).setMidUnit false)
        (hi _) hl hr capacity site request
      exact hs.imp_right fun hc => hc.congr rfl rfl
    | upgraded response consumed =>
      have hu := upgrade_comes (v := v.setStaged (v.conn.inbox.staged.drop consumed)) (hi _) hp
        response capacity
      have hr' : (v.setStaged (v.conn.inbox.staged.drop consumed)).conn.socket.received = [] := hr
      have ha' : (v.setStaged (v.conn.inbox.staged.drop consumed)).conn.inbox.assembler =
        .new capacity := ha
      rw [hr', ha', List.nil_append] at hu
      exact hu.imp_right fun hc => hc.congr rfl rfl

theorem receive_cases (v : Visit) (site : Option Site) (hp : v.conn.phase.isLeaving = false)
    (more : Bytes) : (v.conn.inbox.capacity < v.conn.inbox.staged.length + more.length ∧
        ∃ e, v.receive site more = (v, some (.fail e))) ∨
      v.receive site more =
        if v.conn.phase = .handshaking then
          (v.setStaged (v.conn.inbox.staged ++ more)).greet site
        else (v.setStaged (v.conn.inbox.staged ++ more)).takeFrames := by
  unfold receive Inbox.append
  rw [hp, if_neg Bool.false_ne_true]
  dsimp only
  by_cases hc : v.conn.inbox.capacity < v.conn.inbox.staged.length + more.length
  · rw [if_pos hc]
    exact .inl ⟨hc, _, rfl⟩
  · rw [if_neg hc]
    exact .inr rfl

/-- A visit takes the session from what the earlier bytes came to on to what they come to with the
later ones. -/
theorem receive_comes {site : Option Site} {canvas : Canvas} {capacity : Nat} {bs : Bytes}
    (hc : v.canvas = (reference site canvas capacity bs).canvas) (h : v.conn.IsIdle)
    (hr : v.conn.socket.received = (reference site canvas capacity bs).received)
    (hp : v.conn.Awaits capacity (reference site canvas capacity bs).progress) (more : Bytes) :
    Overruns (v.receive site more).2 ∨
      Comes v.conn capacity (reference site canvas capacity (bs ++ more))
        (v.receive site more) := by
  have hl : v.conn.phase.isLeaving = false := by
    cases ho : (reference site canvas capacity bs).progress <;> rw [ho] at hp
    · rw [hp.1]; rfl
    · rw [hp.1]; rfl
    · exact hp.elim
  unfold receive
  rw [hl, if_neg Bool.false_ne_true]
  unfold Inbox.append
  dsimp only
  split
  · rename_i he
    split at he
    · rw [Except.error.injEq] at he
      exact .inl ⟨_, rfl, by rw [← he]; rfl⟩
    · simp at he
  · rename_i inbox he
    split at he
    · simp at he
    · rw [Except.ok.injEq] at he
      subst he
      have hi : ∀ inbox, Connection.IsIdle { v.conn with inbox } := fun _ => ⟨h.socket, h.outbox⟩
      rcases ho : (reference site canvas capacity bs).progress with staged | ⟨staged, a⟩ | reason
      · -- The request has not come whole, so all the bytes are staged.
        rw [ho] at hp
        have href := reference_of_greeting ho
        rw [href] at hc hr ho
        rw [Progress.greeting.injEq] at ho
        have hcv : v.canvas = canvas := hc
        rw [if_pos hp.1, hp.2.1, ← ho, ← hcv]
        have hg := greet_comes (v := ⟨v.canvas, { v.conn with
          inbox := { v.conn.inbox with staged := bs ++ more } }, v.events⟩) site (hi _) hp.1
            hp.2.2 hr
        exact hg.imp_right fun hc => hc.congr rfl rfl
      · -- The frames go on behind the bytes that are staged.
        rw [ho] at hp
        have hna : v.conn.phase ≠ .handshaking := by rw [hp.1]; nofun
        rw [if_neg hna, reference_append_of_reading more ho, ← hc, ← hr, ← hp.2.1, ← hp.2.2]
        have ht := takeFrames_comes (v := ⟨v.canvas, { v.conn with
          inbox := { v.conn.inbox with staged := v.conn.inbox.staged ++ more } }, v.events⟩)
            (hi _) hp.1
          capacity
        exact ht.imp_right fun hc => hc.congr rfl rfl
      · rw [ho] at hp
        exact hp.elim

end Visit
end SharedCanvas
