import SharedCanvas.Proofs.Session.Answers

namespace SharedCanvas

theorem Frame.suffix_pump {σ ε : Type} (step : σ → Frame → σ × Option ε) (s : σ) (bs : Bytes) :
    (pump step s bs).2.1 <:+ bs := by
  induction bs using Frame.split.induct generalizing s with
  | case1 bs e hd => simp only [pump_of_error hd, List.suffix_rfl]
  | case2 bs n hd => simp only [pump_of_incomplete hd, List.suffix_rfl]
  | case3 bs frame n hd _ _ _ _ ih =>
    rcases hst : step s frame with ⟨s', _ | e⟩
    · rw [pump_of_step hd hst]
      exact (ih s').trans (List.drop_suffix n bs)
    · rw [pump_of_halt hd hst]
      exact List.drop_suffix n bs

namespace Visit

/-- The taking of a frame preserves the property. -/
structure Heeds (motive : Connection → Prop) : Prop where
  send : ∀ {c : Connection} (bytes : Bytes), motive c → motive (c.send bytes).1
  assembler : ∀ {c : Connection} {frame : Frame} {a : Assembler} {m : Option Message}, motive c →
    c.inbox.assembler.push frame = .ok (a, m) →
      motive { c with inbox := { c.inbox with assembler := a } }
  midUnit : ∀ {c : Connection} (midUnit : Bool), motive c →
    motive { c with inbox := { c.inbox with midUnit } }

/-- All parts of a visit preserve the property. -/
structure Preserves (motive : Connection → Prop) : Prop extends Heeds motive where
  activate : ∀ {c : Connection}, motive c → motive (c.advance .active)
  append : ∀ {c : Connection} {bytes : Bytes} {inbox : Inbox}, motive c →
    c.inbox.append bytes = .ok inbox → motive { c with inbox }
  consume : ∀ {c : Connection} {staged : Bytes}, motive c → staged <:+ c.inbox.staged →
    motive { c with inbox := { c.inbox with staged } }

variable {motive : Connection → Prop} {v : Visit}

theorem Heeds.reply (h : Heeds motive) (hv : motive v.conn) (bytes : Bytes) (next : Option Halt) :
    motive (v.reply bytes next).1.conn := by
  have hs := h.send bytes hv
  unfold Visit.reply Visit.send
  rcases hc : v.conn.send bytes with ⟨c, _ | e⟩
  · rwa [hc] at hs
  · rwa [hc] at hs

theorem Heeds.apply (hv : motive v.conn) (ps : List Pixel) : motive (v.apply ps).conn := by
  rwa [(v.apply_eq ps).2]

theorem Heeds.obey (h : Heeds motive) (hv : motive v.conn) (m : Message) :
    motive (v.obey m).1.conn := by
  cases m with
  | binary payload => exact Heeds.apply hv _
  | text payload =>
    rw [Visit.obey]
    dsimp only
    split
    · exact Heeds.apply (v := v.report (.badText v.conn.id)) hv _
    · exact Heeds.apply hv _
  | ping payload => exact h.reply hv _ _
  | close code =>
    have hr := h.reply (v := v.report (.sentClose v.conn.id code)) hv
      (Frame.encode .close (Frame.closePayload Frame.closeNormal)) (some .leave)
    rw [Visit.obey]
    dsimp only
    split
    · exact h.midUnit false hr
    · exact hr

theorem Heeds.takeFrame (h : Heeds motive) (hv : motive v.conn) (frame : Frame) :
    motive (v.takeFrame frame).1.conn := by
  unfold Visit.takeFrame
  split
  · exact hv
  · rename_i a ha
    exact h.assembler hv ha
  · rename_i a m ha
    exact h.obey (v := v.setAssembler a) (h.assembler hv ha) m

theorem heeds_staged (staged : Bytes) : Heeds fun c => c.inbox.staged = staged := by
  refine ⟨?_, fun hc _ => hc, fun _ hc => hc⟩
  intro c bytes hc
  rw [(c.send_keeps bytes).2.2.2.1]
  exact hc

theorem Preserves.takeFrames (h : Preserves motive) (hv : motive v.conn) :
    motive v.takeFrames.1.conn := by
  have hf : ∀ (w : Visit) (f : Frame), motive w.conn ∧ w.conn.inbox.staged = v.conn.inbox.staged →
      motive (w.takeFrame f).1.conn ∧
        (w.takeFrame f).1.conn.inbox.staged = v.conn.inbox.staged :=
    fun w f hw => ⟨h.toHeeds.takeFrame hw.1 f, (heeds_staged _).takeFrame hw.2 f⟩
  -- What is left is the end of what was staged before, and that no frame has changed.
  have hp := Frame.pump_invariant hf ⟨hv, rfl⟩ v.conn.inbox.staged
  have hs := Frame.suffix_pump Visit.takeFrame v v.conn.inbox.staged
  unfold Visit.takeFrames
  rcases hpe : Frame.pump Visit.takeFrame v v.conn.inbox.staged with ⟨w, staged, stop⟩
  rw [hpe] at hp hs
  have hw : motive (w.setStaged staged).conn := h.consume hp.1 (hp.2.symm ▸ hs)
  cases stop with
  | halted halt => exact hw
  | malformed e => exact hw
  | starved n => exact h.midUnit _ hw

theorem Preserves.sendPicture (h : Preserves motive) (hv : motive v.conn) :
    motive v.sendPicture.1.conn := by
  have hs := h.send (Frame.encode .binary v.canvas.snapshot.encode) hv
  unfold Visit.sendPicture Visit.send
  rcases hc : v.conn.send (Frame.encode .binary v.canvas.snapshot.encode) with ⟨c, _ | e⟩
  · rw [hc] at hs
    exact h.activate hs
  · rwa [hc] at hs

theorem Preserves.greet (h : Preserves motive) (hv : motive v.conn) (site : Option Site) :
    motive (v.greet site).1.conn := by
  have hd : ∀ n, motive (v.setStaged (v.conn.inbox.staged.drop n)).conn :=
    fun n => h.consume hv (List.drop_suffix n _)
  unfold Visit.greet
  split
  · exact hv
  · exact h.midUnit true hv
  · rename_i request n _
    unfold Visit.serve
    split
    · exact h.midUnit false (hd n)
    · exact h.toHeeds.reply (h.midUnit false (hd n)) _ _
  · rename_i response n _
    have hs := h.send response (hd n)
    unfold Visit.send
    rcases hc : (v.setStaged (v.conn.inbox.staged.drop n)).conn.send response with ⟨c, _ | e⟩
    · rw [hc] at hs
      have hp := h.sendPicture (v := { v.setStaged (v.conn.inbox.staged.drop n) with conn := c }) hs
      dsimp only
      split
      · rename_i hp'
        rwa [hp'] at hp
      · rename_i w hp'
        rw [hp'] at hp
        exact h.takeFrames (v := w.report (.upgraded w.conn.id)) hp
    · rwa [hc] at hs

theorem Preserves.receive (h : Preserves motive) (hv : motive v.conn) (site : Option Site)
    (bytes : Bytes) : motive (v.receive site bytes).1.conn := by
  unfold Visit.receive
  split
  · exact hv
  · split
    · exact hv
    · rename_i inbox hi
      have ha : motive { v.conn with inbox } := h.append hv hi
      dsimp only
      split
      · exact h.greet (v := { v with conn := { v.conn with inbox } }) ha site
      · exact h.takeFrames (v := { v with conn := { v.conn with inbox } }) ha

end Visit
end SharedCanvas
