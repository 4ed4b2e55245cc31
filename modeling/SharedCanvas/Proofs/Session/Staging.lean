import SharedCanvas.Proofs.Frame.Split
import SharedCanvas.Proofs.Session.Chunks

namespace SharedCanvas

def Event.isEnd : Event → Bool
  | .closed .. => true
  | _ => false

def SessionError.isOverflow : SessionError → Bool
  | .bufferOverflow .. => true
  | _ => false

theorem Frame.pump_invariant {σ ε : Type} {step : σ → Frame → σ × Option ε} {motive : σ → Prop}
    (hs : ∀ s frame, motive s → motive (step s frame).1) {s : σ} (h : motive s) (bs : Bytes) :
    motive (pump step s bs).1 := by
  induction bs using Frame.split.induct generalizing s with
  | case1 bs e hd => rwa [pump_of_error hd]
  | case2 bs n hd => rwa [pump_of_incomplete hd]
  | case3 bs frame n hd _ _ _ _ ih =>
    have h' := hs s frame h
    rcases hst : step s frame with ⟨s', _ | e⟩
    · rw [hst] at h'
      rw [pump_of_step hd hst]
      exact ih h'
    · rw [hst] at h'
      rw [pump_of_halt hd hst]
      exact h'

theorem Frame.exists_of_halted {σ ε : Type} {step : σ → Frame → σ × Option ε} {s : σ} {bs : Bytes}
    {e : ε} (h : (pump step s bs).2.2 = .halted e) : ∃ s frame, (step s frame).2 = some e := by
  induction bs using Frame.split.induct generalizing s with
  | case1 bs e hd =>
    rw [pump_of_error hd] at h
    simp at h
  | case2 bs n hd =>
    rw [pump_of_incomplete hd] at h
    simp at h
  | case3 bs frame n hd _ _ _ _ ih =>
    rcases hst : step s frame with ⟨s', _ | e'⟩
    · rw [pump_of_step hd hst] at h
      exact ih h
    · rw [pump_of_halt hd hst, Frame.Stop.halted.injEq] at h
      exact ⟨s, frame, by rw [hst, h]⟩

theorem Connection.not_isOverflow_of_send {c : Connection} {bytes : Bytes} {e : SessionError}
    (h : (c.send bytes).2 = some e) : e.isOverflow = false := by
  rcases c.send_cases bytes with ⟨_, hs⟩ | ⟨_, hs⟩ | hs
  · rw [hs] at h
    simp at h
  · rw [hs, Option.some.injEq] at h
    rw [← h]
    rfl
  · rw [hs, write] at h
    obtain ⟨fault, _, rfl⟩ := Option.map_eq_some_iff.1 h
    rfl

namespace Visit
open Connection

variable {v w x : Visit} {m : Message} {frame : Frame}

/-- What handling bytes never changes, and never reports. -/
structure Keeps (v w : Visit) : Prop where
  id : w.conn.id = v.conn.id
  listed : w.conn.listed = v.conn.listed
  capacity : w.conn.inbox.capacity = v.conn.inbox.capacity
  quiet : ∀ e ∈ w.events, e.isEnd = true → e ∈ v.events

theorem Keeps.refl (v : Visit) : v.Keeps v := ⟨rfl, rfl, rfl, fun _ h _ => h⟩

theorem Keeps.trans (h : v.Keeps w) (h' : w.Keeps x) : v.Keeps x :=
  ⟨h'.id.trans h.id, h'.listed.trans h.listed, h'.capacity.trans h.capacity,
    fun e he hc => h.quiet e (h'.quiet e he hc) hc⟩

theorem keeps_inbox (v : Visit) {inbox : Inbox} (h : inbox.capacity = v.conn.inbox.capacity) :
    v.Keeps { v with conn := { v.conn with inbox } } := ⟨rfl, rfl, h, fun _ h _ => h⟩

theorem keeps_report {e : Event} (h : e.isEnd = false) : v.Keeps (v.report e) := by
  refine ⟨rfl, rfl, rfl, ?_⟩
  intro e' he hc
  rcases Array.mem_push.1 he with he | rfl
  · exact he
  · rw [h] at hc
    simp at hc

theorem keeps_apply (v : Visit) (ps : List Pixel) : v.Keeps (v.apply ps) := by
  have hn := (v.apply_eq ps).2
  refine ⟨by rw [hn], by rw [hn], by rw [hn], ?_⟩
  intro e he hc
  unfold apply at he
  split at he
  · exact he
  · rcases Array.mem_push.1 he with he | rfl
    · rcases Array.mem_append.1 he with he | he
      · exact he
      · obtain ⟨_, _, rfl⟩ := List.mem_map.1 (List.mem_toArray.1 he)
        simp [Event.isEnd] at hc
    · simp [Event.isEnd] at hc

theorem send_spec (v : Visit) (bytes : Bytes) : v.Keeps (v.send bytes).1 ∧
    (v.send bytes).1.conn.phase = v.conn.phase ∧ (v.send bytes).1.conn.inbox = v.conn.inbox ∧
      ∀ e, (v.send bytes).2 = some e → e.isOverflow = false := by
  have hk := v.conn.send_keeps bytes
  exact ⟨⟨hk.1, hk.2.1, congrArg Inbox.capacity hk.2.2.2.1, fun _ h _ => h⟩, hk.2.2.1,
    hk.2.2.2.1, fun e he => not_isOverflow_of_send he⟩

/-- What handling something keeps. The socket decides only whether it halts. -/
structure Takes (v : Visit) (r : Visit × Option Halt) : Prop where
  keeps : v.Keeps r.1
  phase : r.1.conn.phase = v.conn.phase
  halt : ∀ e, r.2 = some (.fail e) → e.isOverflow = false

theorem Takes.trans {r : Visit × Option Halt} (h : v.Takes (w, none)) (h' : w.Takes r) :
    v.Takes r :=
  ⟨h.keeps.trans h'.keeps, h'.phase.trans h.phase, h'.halt⟩

theorem isOverflow_of_fail {e e' : SessionError} (h : e.isOverflow = false)
    (he : some (Halt.fail e) = some (.fail e')) : e'.isOverflow = false := by
  rw [Option.some.injEq, Halt.fail.injEq] at he
  exact he ▸ h

theorem takes_reply (v : Visit) (bytes : Bytes) (next : Option Halt)
    (hn : ∀ e, next = some (.fail e) → e.isOverflow = false) : v.Takes (v.reply bytes next) := by
  obtain ⟨hk, hp, -, he⟩ := v.send_spec bytes
  unfold reply
  rcases hs : v.send bytes with ⟨d, _ | e⟩
  · rw [hs] at hk hp
    exact ⟨hk, hp, hn⟩
  · rw [hs] at hk hp he
    exact ⟨hk, hp, fun e' => isOverflow_of_fail (he e rfl)⟩

theorem takes_obey (v : Visit) (m : Message) : v.Takes (v.obey m) := by
  cases m with
  | binary payload =>
    exact ⟨v.keeps_apply _, by rw [obey, (v.apply_eq _).2], by simp [obey]⟩
  | text payload =>
    rw [obey]
    dsimp only
    split
    · have hr : v.Keeps (v.report (.badText v.conn.id)) := keeps_report rfl
      refine ⟨hr.trans (keeps_apply _ _), ?_, by simp⟩
      rw [(apply_eq _ _).2]
      rfl
    · exact ⟨v.keeps_apply _, by rw [(v.apply_eq _).2], by simp⟩
  | ping payload =>
    exact v.takes_reply (Frame.encode .pong payload) none (by simp)
  | close code =>
    have hr : v.Keeps (v.report (.sentClose v.conn.id code)) := keeps_report rfl
    have hs := (v.report (.sentClose v.conn.id code)).takes_reply
      (Frame.encode .close (Frame.closePayload Frame.closeNormal)) (some .leave) (by simp)
    rw [obey]
    dsimp only
    refine ⟨hr.trans ?_, ?_, hs.halt⟩
    · split
      · exact hs.keeps.trans (keeps_inbox _ rfl)
      · exact hs.keeps
    · split <;> exact hs.phase

theorem takes_takeFrame (v : Visit) (frame : Frame) : v.Takes (v.takeFrame frame) := by
  have ha : ∀ a, v.Takes (v.setAssembler a, none) :=
    fun _ => ⟨v.keeps_inbox rfl, rfl, nofun⟩
  unfold takeFrame
  split
  · exact ⟨.refl v, rfl, fun e => isOverflow_of_fail rfl⟩
  · exact ha _
  · exact (ha _).trans (takes_obey _ _)

/-- A visit that goes on has taken every whole frame off what was staged. -/
theorem takeFrames_spec (v : Visit) : v.Takes v.takeFrames ∧ (v.takeFrames.2 = none →
    (Frame.split v.conn.inbox.staged).2.2 = none ∧
      v.takeFrames.1.conn.inbox.staged = (Frame.split v.conn.inbox.staged).2.1) := by
  -- What every frame keeps, all of them keep. A halt is that of one of them.
  have hk : v.Keeps (Frame.pump takeFrame v v.conn.inbox.staged).1 :=
    Frame.pump_invariant (motive := v.Keeps) (fun s f h => h.trans (s.takes_takeFrame f).keeps)
      (.refl v) _
  have hp : (Frame.pump takeFrame v v.conn.inbox.staged).1.conn.phase = v.conn.phase :=
    Frame.pump_invariant (motive := fun w : Visit => w.conn.phase = v.conn.phase)
      (fun s f h => (s.takes_takeFrame f).phase.trans h) rfl _
  have hh : ∀ {halt}, (Frame.pump takeFrame v v.conn.inbox.staged).2.2 = .halted halt →
    ∃ s frame, (takeFrame s frame).2 = some halt := Frame.exists_of_halted
  have hr : ∀ {n}, (Frame.pump takeFrame v v.conn.inbox.staged).2.2 = .starved n → _ :=
    Frame.rest_of_pump
  unfold takeFrames
  rcases hpe : Frame.pump takeFrame v v.conn.inbox.staged with ⟨w, staged, stop⟩
  rw [hpe] at hk hp hh hr
  have hs : v.Keeps (w.setStaged staged) := hk.trans (keeps_inbox w rfl)
  cases stop with
  | halted halt =>
    refine ⟨⟨hs, hp, ?_⟩, by simp⟩
    intro e he
    obtain ⟨u, frame, hu⟩ := hh rfl
    exact (u.takes_takeFrame frame).halt e (hu.trans he)
  | malformed e =>
    exact ⟨⟨hs, hp, fun e' => isOverflow_of_fail rfl⟩, by simp⟩
  | starved n =>
    exact ⟨⟨hs.trans (keeps_inbox _ rfl), hp, nofun⟩, fun _ => hr rfl⟩

end Visit

/-- Of all the bytes that have come, those that follow the last whole unit are staged. -/
def Connection.Stages (c : Connection) (bs : Bytes) : Prop :=
  c.phase = .handshaking ∧ Handshake.process bs = .ok .incomplete ∧ c.inbox.staged = bs ∨
  c.phase = .active ∧ ∃ response n, Handshake.process bs = .ok (.upgraded response n) ∧
    (Frame.split (bs.drop n)).2.2 = none ∧ c.inbox.staged = (Frame.split (bs.drop n)).2.1

namespace Visit
open Connection

variable {v w : Visit}

/-- What handling bytes comes to on any socket. -/
structure Handles (v : Visit) (bs : Bytes) (r : Visit × Option Halt) : Prop where
  keeps : v.Keeps r.1
  halt : ∀ e, r.2 = some (.fail e) → e.isOverflow = false
  stages : r.2 = none → r.1.conn.Stages bs

theorem sendPicture_spec (v : Visit) : v.Keeps v.sendPicture.1 ∧
    v.sendPicture.1.conn.inbox = v.conn.inbox ∧
      (∀ e, v.sendPicture.2 = some e → e.isOverflow = false) ∧
        (v.conn.phase = .handshaking → v.sendPicture.2 = none →
          v.sendPicture.1.conn.phase = .active) := by
  obtain ⟨hk, hp, hi, he⟩ := v.send_spec (Frame.encode .binary v.canvas.snapshot.encode)
  unfold sendPicture
  rcases hs : v.send (Frame.encode .binary v.canvas.snapshot.encode) with ⟨w, _ | e⟩
  · rw [hs] at hk hp hi
    have ha : w.conn.phase = .handshaking → (w.conn.advance .active).phase = .active := by
      intro hw
      simp [advance, hw, Phase.rank]
    obtain ⟨phase, hadv⟩ := w.conn.advance_eq .active
    rw [hadv] at ha
    dsimp only
    rw [hadv]
    exact ⟨hk.trans ⟨rfl, rfl, rfl, fun _ h _ => h⟩, hi, by simp, fun hh _ => ha (hp.trans hh)⟩
  · rw [hs] at hk hi he
    exact ⟨hk, hi, he, by simp⟩

theorem handles_greet (v : Visit) (site : Option Site) (hp : v.conn.phase = .handshaking) :
    v.Handles v.conn.inbox.staged (v.greet site) := by
  have hset : ∀ staged, v.Keeps (v.setStaged staged) := fun _ => v.keeps_inbox rfl
  unfold greet
  split
  · exact ⟨.refl v, fun e => isOverflow_of_fail rfl, by simp⟩
  · rename_i hv
    exact ⟨v.keeps_inbox rfl, nofun, fun _ => .inl ⟨hp, hv, rfl⟩⟩
  · rename_i request consumed hv
    have hk : v.Keeps ((v.setStaged (v.conn.inbox.staged.drop consumed)).setMidUnit false) :=
      v.keeps_inbox rfl
    generalize (v.setStaged (v.conn.inbox.staged.drop consumed)).setMidUnit false = w at hk
    unfold serve
    split
    · exact ⟨hk, fun e => isOverflow_of_fail rfl, by simp⟩
    · rename_i site
      have hs := (w.report (.served w.conn.id request.method request.path
        (site.respond request).length)).takes_reply (site.respond request) (some .leave) (by simp)
      refine ⟨(hk.trans (keeps_report rfl)).trans hs.keeps, hs.halt, ?_⟩
      unfold reply
      dsimp only
      split <;> simp
  · rename_i response consumed hv
    obtain ⟨hk, hph, hin, he⟩ :=
      (v.setStaged (v.conn.inbox.staged.drop consumed)).send_spec response
    have hk := (hset _).trans hk
    rcases hs : (v.setStaged (v.conn.inbox.staged.drop consumed)).send response with ⟨w, _ | e⟩
    · rw [hs] at hk hph hin
      obtain ⟨hk', hin', he', ha⟩ := w.sendPicture_spec
      have ha := ha (hph.trans hp)
      dsimp only
      rcases hp' : w.sendPicture with ⟨x, _ | e⟩
      · rw [hp'] at hk' hin' ha
        have hr : x.Keeps (x.report (.upgraded x.conn.id)) := keeps_report rfl
        obtain ⟨ht, hst⟩ := (x.report (.upgraded x.conn.id)).takeFrames_spec
        have hstaged : (x.report (.upgraded x.conn.id)).conn.inbox.staged =
            v.conn.inbox.staged.drop consumed := congrArg Inbox.staged (hin'.trans hin)
        rw [hstaged] at hst
        refine ⟨((hk.trans hk').trans hr).trans ht.keeps, ht.halt, ?_⟩
        intro hn
        exact .inr ⟨ht.phase.trans (ha rfl), response, consumed, hv, hst hn⟩
      · rw [hp'] at hk' he'
        exact ⟨hk.trans hk', fun e' => isOverflow_of_fail (he' e rfl), by simp⟩
    · rw [hs] at hk he
      exact ⟨hk, fun e' => isOverflow_of_fail (he e rfl), by simp⟩

/-- A chunk overflows if with what is staged it is more than the capacity. Otherwise it is staged
and handled. -/
theorem receive_spec (v : Visit) (site : Option Site) {bs : Bytes} (hs : v.conn.Stages bs)
    (more : Bytes) :
    if v.conn.inbox.capacity < v.conn.inbox.staged.length + more.length then
      ∃ e : SessionError, v.receive site more = (v, some (.fail e)) ∧ e.isOverflow = true
    else v.Handles (bs ++ more) (v.receive site more) := by
  have hl : v.conn.phase.isLeaving = false := by
    rcases hs with hs | hs
    · rw [hs.1]; rfl
    · rw [hs.1]; rfl
  unfold receive
  rw [hl, if_neg Bool.false_ne_true]
  unfold Inbox.append
  dsimp only
  by_cases hc : v.conn.inbox.capacity < v.conn.inbox.staged.length + more.length
  · rw [if_pos hc, if_pos hc]
    exact ⟨_, rfl, rfl⟩
  · rw [if_neg hc, if_neg hc]
    dsimp only
    rcases hs with ⟨hp, -, hst⟩ | ⟨hp, response, n, hv, hsp, hst⟩
    · rw [if_pos hp, hst]
      have hg := handles_greet ⟨v.canvas, { v.conn with
        inbox := { v.conn.inbox with staged := bs ++ more } }, v.events⟩ site hp
      exact ⟨⟨hg.keeps.id, hg.keeps.listed, hg.keeps.capacity, hg.keeps.quiet⟩, hg.halt, hg.stages⟩
    · have hne : v.conn.phase ≠ .handshaking := by rw [hp]; nofun
      rw [if_neg hne]
      obtain ⟨ht, hst'⟩ := takeFrames_spec ⟨v.canvas, { v.conn with
        inbox := { v.conn.inbox with staged := v.conn.inbox.staged ++ more } }, v.events⟩
      refine ⟨⟨ht.keeps.id, ht.keeps.listed, ht.keeps.capacity, ht.keeps.quiet⟩, ht.halt, ?_⟩
      intro hn
      -- The request came whole with the earlier bytes, so its verdict stands.
      have hi : Handshake.process bs ≠ .ok .incomplete := by rw [hv]; nofun
      have hle : n ≤ bs.length := Handshake.consumed_le_length hv nofun
      have hsplit := Frame.split_append hsp more
      refine .inr ⟨ht.phase.trans hp, response, n, (Handshake.process_append hi more).trans hv, ?_⟩
      rw [List.drop_append_of_le_length hle, hsplit, ← hst]
      exact hst' hn

end Visit
end SharedCanvas
