import SharedCanvas.Proofs.Session.Lifecycle

namespace SharedCanvas

namespace Socket

/-- No write will fail: each takes a byte at least, or finds the socket full for now. -/
structure Lasts (s : Socket) : Prop where
  shut : s.shut = false
  standing : s.standing ≠ .broken
  script : ∀ w ∈ s.script, w ≠ .took 0 ∧ ∀ fault, w ≠ .failed fault

theorem Lasts.write {s s' : Socket} {bytes : Bytes} {w : Written} (h : s.Lasts) (hb : bytes ≠ [])
    (hw : s.write bytes = (w, s')) : s'.Lasts ∧ w ≠ .took 0 ∧ ∀ fault, w ≠ .failed fault := by
  have hl : bytes.length ≠ 0 := fun hz => hb (List.eq_nil_of_length_eq_zero hz)
  unfold Socket.write at hw
  rw [if_neg (by rw [h.shut]; exact Bool.false_ne_true)] at hw
  have htail : ∀ {x : Written} {script : List Written}, s.script = x :: script →
      (x ≠ .took 0 ∧ ∀ fault, x ≠ .failed fault) ∧
        ∀ y ∈ script, y ≠ .took 0 ∧ ∀ fault, y ≠ .failed fault := by
    intro x script hs
    have hm := h.script
    rw [hs] at hm
    exact List.forall_mem_cons.1 hm
  split at hw
  · rename_i n script hs
    obtain ⟨⟨hn, -⟩, hrest⟩ := htail hs
    rw [Prod.mk.injEq] at hw
    rw [← hw.1, ← hw.2]
    refine ⟨⟨h.shut, h.standing, hrest⟩, fun hz => ?_, nofun⟩
    rw [Written.took.injEq] at hz
    have hn : n ≠ 0 := fun he => hn (by rw [he])
    omega
  · rename_i x script _ hs
    obtain ⟨hx, hrest⟩ := htail hs
    rw [Prod.mk.injEq] at hw
    rw [← hw.1, ← hw.2]
    exact ⟨⟨h.shut, h.standing, hrest⟩, hx⟩
  · split at hw
    · rw [Prod.mk.injEq] at hw
      rw [← hw.1, ← hw.2]
      refine ⟨⟨h.shut, h.standing, h.script⟩, fun hz => ?_, nofun⟩
      rw [Written.took.injEq] at hz
      exact hl hz
    · rw [Prod.mk.injEq] at hw
      rw [← hw.1, ← hw.2]
      exact ⟨h, nofun, nofun⟩
    · exact absurd ‹s.standing = .broken› h.standing

end Socket

namespace Outbox

theorem lasts_writeFrames {frames : List Bytes} {s : Socket} (h : s.Lasts)
    (hf : ∀ frame ∈ frames, frame ≠ []) :
    (writeFrames frames s).2.2 = none ∧ (writeFrames frames s).2.1.Lasts := by
  fun_induction writeFrames frames s with
  | case1 s => exact ⟨rfl, h⟩
  | case2 s frame rest fault s' hw =>
    exact absurd rfl ((h.write (hf _ List.mem_cons_self) hw).2.2 fault)
  | case3 s frame rest s' hw => exact ⟨rfl, (h.write (hf _ List.mem_cons_self) hw).1⟩
  | case4 s frame rest s' hw ih => exact ih (h.write (hf _ List.mem_cons_self) hw).1 hf
  | case5 s frame rest s' hw =>
    exact absurd rfl (h.write (hf _ List.mem_cons_self) hw).2.1
  | case6 s frame rest n s' hw _ hn ih =>
    refine ih (h.write (hf _ List.mem_cons_self) hw).1 (List.forall_mem_cons.2 ⟨fun hd => ?_, ?_⟩)
    · have := List.drop_eq_nil_iff.1 hd
      omega
    · exact (List.forall_mem_cons.1 hf).2
  | case7 s frame rest n s' hw _ _ ih =>
    exact ih (h.write (hf _ List.mem_cons_self) hw).1 (List.forall_mem_cons.1 hf).2

end Outbox

namespace Connection

variable {c : Connection} {bytes : Bytes}

/-- The connection takes the bytes into its outbox. At most its socket fails. -/
structure Accepts (c : Connection) (bytes : Bytes) : Prop where
  given : (c.send bytes).1.given = c.given ++ bytes
  queued : (c.send bytes).1.outbox.queued ≤ c.outbox.queued + bytes.length
  fault : ∀ e, (c.send bytes).2 = some e → ∃ fault, e = .socket fault
  lasts : c.socket.Lasts → (c.send bytes).2 = none ∧ (c.send bytes).1.socket.Lasts

theorem accepts (hp : c.phase.isLeaving = false) (hf : c.IsFilled) (hb : bytes ≠ [])
    (hq : c.outbox.queued + bytes.length ≤ c.outbox.limit) : c.Accepts bytes := by
  rcases c.send_cases bytes with ⟨he, -⟩ | ⟨hlt, -⟩ | hs
  · rw [hp] at he
    exact absurd (he.resolve_right Bool.false_ne_true) hb
  · omega
  let d : Connection := { c with outbox := { c.outbox with frames := c.outbox.frames ++ [bytes] } }
  have hd : d.IsFilled := by
    intro frame hm
    rcases List.mem_append.1 hm with hm | hm
    · exact hf frame hm
    · rwa [List.mem_singleton.1 hm]
  have hw : c.send bytes = d.write := hs
  refine ⟨?_, ?_, ?_, ?_⟩
  · rw [hw, given_write]
    show c.socket.received ++ (c.outbox.frames ++ [bytes]).flatten = _
    rw [List.flatten_append, List.flatten_singleton, ← List.append_assoc]
    rfl
  · rw [hw]
    refine Nat.le_trans (Outbox.length_writeFrames_le d.outbox.frames d.socket) ?_
    show (c.outbox.frames ++ [bytes]).flatten.length ≤ _
    rw [List.flatten_append, List.flatten_singleton, List.length_append]
    exact Nat.le_refl _
  · intro e he
    rw [hw] at he
    obtain ⟨fault, -, hfault⟩ := Option.map_eq_some_iff.1 he
    exact ⟨fault, hfault.symm⟩
  · intro hl
    have hd : ∀ frame ∈ d.outbox.frames, frame ≠ [] := hd
    obtain ⟨hn, hl'⟩ := Outbox.lasts_writeFrames hl hd
    rw [hw]
    exact ⟨congrArg (Option.map SessionError.socket) hn, hl'⟩

/-- The connection was upgraded: the answer and the picture are queued for it, and it is active. -/
structure Joined (c : Connection) (canvas : Canvas) (response : Bytes) (d : Connection) : Prop where
  id : d.id = c.id
  listed : d.listed = c.listed
  phase : d.phase = .active
  given : d.given = c.given ++ (response ++ Frame.encode .binary canvas.snapshot.encode)
  queued : d.outbox.queued ≤ d.outbox.limit

end Connection

namespace Visit
open Connection

variable {v : Visit}

theorem sendPicture_accepted (hp : v.conn.phase = .handshaking) (hf : v.conn.IsFilled)
    (hq : v.conn.outbox.queued + (Frame.encode .binary v.canvas.snapshot.encode).length ≤
      v.conn.outbox.limit) :
    (∃ d, d.phase = .active ∧ d.id = v.conn.id ∧ d.listed = v.conn.listed ∧
      d.inbox = v.conn.inbox ∧ d.outbox.limit = v.conn.outbox.limit ∧
      d.outbox.queued ≤ v.conn.outbox.limit ∧
      d.given = v.conn.given ++ Frame.encode .binary v.canvas.snapshot.encode ∧
      v.sendPicture = (⟨v.canvas, d, v.events⟩, none)) ∨
    ¬ v.conn.socket.Lasts ∧ ∃ fault, v.sendPicture.2 = some (.socket fault) := by
  have ha := accepts (c := v.conn) (by rw [hp]; rfl) hf
    (show Frame.encode .binary v.canvas.snapshot.encode ≠ [] by nofun) hq
  obtain ⟨hi, hl, hph, hin, hlim⟩ :=
    v.conn.send_keeps (Frame.encode .binary v.canvas.snapshot.encode)
  unfold sendPicture Visit.send
  generalize Frame.encode .binary v.canvas.snapshot.encode = picture at *
  rcases hs : v.conn.send picture with ⟨d, _ | e⟩
  · left
    have hd : (v.conn.send picture).1 = d := by rw [hs]
    have hact : d.advance .active = { d with phase := .active } := by
      rw [advance, if_pos]
      rw [← hd, hph, hp]
      decide
    rw [hd] at hi hl hin hlim
    refine ⟨{ d with phase := .active }, rfl, hi, hl, hin, hlim, ?_, ?_, ?_⟩
    · exact Nat.le_trans (hd ▸ ha.queued) hq
    · exact hd ▸ ha.given
    · show (Visit.mk v.canvas (d.advance .active) v.events, none) = _
      rw [hact]
  · right
    refine ⟨fun hlasts => ?_, ?_⟩
    · have hn := (ha.lasts hlasts).1
      rw [hs] at hn
      simp at hn
    · obtain ⟨fault, hfault⟩ := ha.fault e (by rw [hs])
      exact ⟨fault, congrArg some hfault⟩

theorem greet_of_send {w : Visit} {response : Bytes} {n : Nat} (site : Option Site)
    (hr : Handshake.process v.conn.inbox.staged = .ok (.upgraded response n))
    (hs : (v.setStaged (v.conn.inbox.staged.drop n)).send response = (w, none)) :
    (∀ x, w.sendPicture = (x, none) → v.greet site = (x.report (.upgraded x.conn.id)).takeFrames) ∧
      ∀ e, w.sendPicture.2 = some e → (v.greet site).2 = some (.fail e) := by
  rw [greet, hr]
  dsimp only
  rw [hs]
  dsimp only
  constructor
  · intro x hx
    rw [hx]
  · intro e he
    rcases hp : w.sendPicture with ⟨x, _ | e'⟩
    · rw [hp] at he
      simp at he
    · rw [hp] at he
      exact congrArg (Option.map Halt.fail) he

/-- A request that is whole is answered, and the frames behind it are read by an active
connection. -/
theorem greet_joins (site : Option Site) {response : Bytes} {n : Nat}
    (hp : v.conn.phase = .handshaking) (hf : v.conn.IsFilled)
    (hr : Handshake.process v.conn.inbox.staged = .ok (.upgraded response n))
    (hq : v.conn.outbox.queued + response.length +
      (Frame.encode .binary v.canvas.snapshot.encode).length ≤ v.conn.outbox.limit) :
    (∃ d, v.conn.Joined v.canvas response d ∧
      d.inbox = { v.conn.inbox with staged := v.conn.inbox.staged.drop n } ∧
      v.greet site = (Visit.mk v.canvas d (v.events.push (.upgraded v.conn.id))).takeFrames) ∨
    ¬ v.conn.socket.Lasts ∧ ∃ fault, (v.greet site).2 = some (.fail (.socket fault)) := by
  obtain ⟨-, _, key, -, -, hkey⟩ := Handshake.exists_key_of_process hr
  have hne : response ≠ [] := by
    rw [hkey]
    exact List.ne_nil_of_length_pos (by rw [Handshake.length_upgradeResponse]; decide)
  -- The request is taken off first; that touches neither the outbox nor the socket.
  let u : Visit := v.setStaged (v.conn.inbox.staged.drop n)
  have hu : u.conn.Accepts response := accepts (show v.conn.phase.isLeaving = false by rw [hp]; rfl)
    hf hne (show v.conn.outbox.queued + _ ≤ v.conn.outbox.limit by omega)
  obtain ⟨hi, hl, hph, hin, hlim⟩ := u.conn.send_keeps response
  have hfill := IsFilled.send (c := u.conn) hf response
  rcases hs : u.conn.send response with ⟨d, _ | e⟩
  · have hd : (u.conn.send response).1 = d := by rw [hs]
    have hsend : u.send response = (⟨v.canvas, d, v.events⟩, none) := by
      rw [Visit.send, hs]
      rfl
    obtain ⟨hgo, hstop⟩ := greet_of_send site hr hsend
    rw [hd] at hi hl hph hin hlim hfill
    have hdq : d.outbox.queued ≤ v.conn.outbox.queued + response.length := hd ▸ hu.queued
    have hdg : d.given = v.conn.given ++ response := hd ▸ hu.given
    have hdl : d.outbox.limit = v.conn.outbox.limit := hlim
    rcases sendPicture_accepted (v := ⟨v.canvas, d, v.events⟩) (hph.trans hp) hfill
      (by dsimp only; omega) with ⟨b, ha, hbi, hbl, hbin, hblim, hbq, hbg, hb⟩ | ⟨hnl, fault, hb⟩
    · refine .inl ⟨b, ⟨hbi.trans hi, hbl.trans hl, ha, ?_, ?_⟩, hbin.trans hin, ?_⟩
      · rw [hbg, hdg, List.append_assoc]
      · rw [hblim]
        exact hbq
      · rw [hgo _ hb, report]
        show (Visit.mk v.canvas b (v.events.push (.upgraded b.id))).takeFrames = _
        rw [hbi.trans hi]
        rfl
    · exact .inr ⟨fun hlasts => hnl (hd ▸ (hu.lasts hlasts).2), fault, hstop _ hb⟩
  · have hstop : (v.greet site).2 = some (.fail e) := by
      have hsend : u.send response = (⟨v.canvas, d, v.events⟩, some e) := by
        rw [Visit.send, hs]
        rfl
      rw [greet, hr]
      dsimp only
      rw [hsend]
    obtain ⟨fault, hfault⟩ := hu.fault e (by rw [hs])
    refine .inr ⟨fun hlasts => ?_, fault, hfault ▸ hstop⟩
    have hn := (hu.lasts hlasts).1
    rw [hs] at hn
    simp at hn

end Visit

/-- What the bytes that complete a request do to a connection: it joins, or its socket fails. -/
def Connection.Joins (c : Connection) (canvas : Canvas) (site : Option Site)
    (bytes response : Bytes) (n : Nat) : Prop :=
  (∃ d, c.Joined canvas response d ∧
    d.inbox = { c.inbox with staged := (c.inbox.staged ++ bytes).drop n } ∧
    (Visit.mk canvas c #[]).receive site bytes =
      (Visit.mk canvas d #[.upgraded c.id]).takeFrames) ∨
  ¬ c.socket.Lasts ∧ ∃ fault, ((Visit.mk canvas c #[]).receive site bytes).2 =
    some (.fail (.socket fault))

theorem Connection.joins {c : Connection} {canvas : Canvas} (site : Option Site)
    {bytes response : Bytes} {n : Nat} (hp : c.phase = .handshaking) (hf : c.IsFilled)
    (hc : c.inbox.staged.length + bytes.length ≤ c.inbox.capacity)
    (hr : Handshake.process (c.inbox.staged ++ bytes) = .ok (.upgraded response n))
    (hq : c.outbox.queued + response.length +
      (Frame.encode .binary canvas.snapshot.encode).length ≤ c.outbox.limit) :
    c.Joins canvas site bytes response n := by
  rcases (Visit.mk canvas c #[]).receive_cases site (by rw [hp]; rfl) bytes with ⟨hlt, -⟩ | hrec
  · dsimp only at hlt
    omega
  · rw [if_pos hp] at hrec
    rw [Connection.Joins, hrec]
    rcases Visit.greet_joins (v := (Visit.mk canvas c #[]).setStaged (c.inbox.staged ++ bytes))
      site hp hf hr hq with ⟨d, hj, hin, hg⟩ | hn
    · exact .inl ⟨d, ⟨hj.id, hj.listed, hj.phase, hj.given, hj.queued⟩, hin, hg⟩
    · exact .inr hn

end SharedCanvas
