import SharedCanvas.Proofs.Frame.Assembled
import SharedCanvas.Proofs.Session.Reply
import SharedCanvas.Proofs.Session.Staging

namespace SharedCanvas
open Reply (Talk OpenTalk)

def Frame.Stop.halt? {ε : Type} : Stop ε → Option ε
  | .halted e => some e
  | _ => none

def Message.ping? : Message → Option Bytes
  | .ping payload => some payload
  | _ => none

namespace Assembler

variable {a b : Assembler} {m : Option Message}

theorem payloadsOf_of_push {frame : Frame} (h : a.push frame = .ok (b, m)) :
    Frame.payloadsOf .ping [frame] = (m.bind Message.ping?).toList := by
  have hb : a.answer frame = (b, .ok m) := by rw [answer, h]
  rw [Frame.payloadsOf_singleton]
  rcases a.cases_of_frame frame with hp | ⟨e, he⟩ | ⟨u, hu, hl⟩
  · rw [answer_of_not_isPiece hp] at hb
    obtain rfl : frame.aside = m := Except.ok.inj (congrArg Prod.snd hb)
    unfold Frame.aside
    cases hk : frame.kind? with
    | none => rfl
    | some opcode => cases opcode <;> rfl
  · rw [answer_of_refuses he] at hb
    cases hb
  · rw [answer_of_extends hu hl] at hb
    have hn : frame.kind? ≠ some .ping := by
      intro hk
      have hp := hu.isPiece
      rw [Frame.isPiece, hk] at hp
      cases hp
    have hu : u.message.ping? = none := by
      unfold Unfinished.message
      cases u.kind <;> rfl
    rw [if_neg hn, ← Except.ok.inj (congrArg Prod.snd hb)]
    cases frame.fin
    · rfl
    · exact (congrArg Option.toList hu).symm

end Assembler

namespace Connection

variable {c d : Connection}

theorem given_send_or (c : Connection) (bytes : Bytes) :
    (c.send bytes).1.given = c.given ∨ (c.send bytes).1.given = c.given ++ bytes := by
  rcases c.send_cases bytes with ⟨-, h⟩ | ⟨-, h⟩ | h
  · exact .inl (by rw [h])
  · exact .inl (by rw [h])
  · right
    rw [h, given_write]
    simp [given]

end Connection

namespace Visit

variable {v w : Visit} {r : Visit × Option Halt} {pings more : List Bytes} {frame : Frame}

/-- The replies that were queued in a visit in which these pings were read. Deltas are queued by
nobody but the broadcasts. -/
def Says (v : Visit) (pings : List Bytes) (r : Visit × Option Halt) : Prop :=
  ∃ replies, r.1.conn.given = v.conn.given ++ replies.flatMap Reply.bytes ∧
    Talk pings replies ∧ (r.2 = none → OpenTalk pings replies) ∧
      ∀ payload, .delta payload ∉ replies

theorem says_silence (v : Visit) (hg : w.conn.given = v.conn.given) : v.Says [] (w, none) :=
  ⟨[], by simp [hg], Reply.openTalk_nil.talk, fun _ => Reply.openTalk_nil, nofun⟩

theorem says_halt (v : Visit) (hg : w.conn.given = v.conn.given) (pings : List Bytes)
    (halt : Halt) : v.Says pings (w, some halt) :=
  ⟨[], by simp [hg], Reply.openTalk_nil.talk.mono List.nil_prefix, nofun, nofun⟩

theorem Says.trans (h : v.Says pings (w, none)) (h' : w.Says more r) :
    v.Says (pings ++ more) r := by
  obtain ⟨replies, hg, -, ho, hd⟩ := h
  obtain ⟨replies', hg', ht', ho', hd'⟩ := h'
  have ho := ho rfl
  refine ⟨replies ++ replies', ?_, ho.append_talk ht', fun hn => ho.append (ho' hn), ?_⟩
  · rw [hg', hg, List.flatMap_append, List.append_assoc]
  · exact fun payload hm => (List.mem_append.1 hm).elim (hd payload) (hd' payload)

theorem Says.of_halt {halt : Halt} (h : v.Says pings (w, some halt)) (more : List Bytes) :
    v.Says (pings ++ more) (w, some halt) := by
  obtain ⟨replies, hg, ht, -, hd⟩ := h
  exact ⟨replies, hg, ht.mono (List.prefix_append _ _), nofun, hd⟩

theorem says_reply (hp : v.conn.phase.isLeaving = false) {x : Reply} {next : Option Halt}
    (ht : Talk pings [x]) (ho : next = none → OpenTalk pings [x])
    (hd : ∀ payload, .delta payload ∉ [x]) : v.Says pings (v.reply x.bytes next) := by
  have hg := v.conn.given_send_or x.bytes
  unfold reply Visit.send
  rcases hs : v.conn.send x.bytes with ⟨c, _ | e⟩
  · have hc := Connection.given_send hs hp
    exact ⟨[x], by simp [hc], ht, ho, hd⟩
  · rw [hs] at hg
    rcases hg with hg | hg
    · exact says_halt v hg pings _
    · exact ⟨[x], by simp [hg], ht, nofun, hd⟩

theorem says_obey (hp : v.conn.phase.isLeaving = false) {m : Message}
    (hl : ∀ payload, m.ping? = some payload → payload.length ≤ 125) :
    v.Says m.ping?.toList (v.obey m) := by
  cases m with
  | binary payload =>
    exact says_silence v (by rw [(v.apply_eq _).2])
  | text payload =>
    rw [obey]
    dsimp only
    split
    · exact says_silence v (by rw [(apply_eq _ _).2]; rfl)
    · exact says_silence v (by rw [(v.apply_eq _).2])
  | ping payload =>
    have hs := Reply.isSound_pong (hl payload rfl)
    have ho : OpenTalk [payload] [.pong payload] :=
      ⟨List.forall_mem_singleton.2 hs, rfl, by simp⟩
    have hr : v.Says [payload] (v.reply _ none) := says_reply hp ho.talk (fun _ => ho) (by simp)
    rw [Reply.bytes_pong] at hr
    exact hr
  | close code =>
    have ht : Talk [] [.close] :=
      ⟨List.forall_mem_singleton.2 Reply.isSound_close, List.prefix_rfl, List.not_mem_nil⟩
    have hn : some Halt.leave = none → OpenTalk [] [.close] := by simp
    have hr := says_reply (v := v.report (.sentClose v.conn.id code)) hp ht hn (by simp)
    rw [Reply.bytes_close] at hr
    obtain ⟨replies, hg, hrest⟩ := hr
    rw [obey]
    refine ⟨replies, ?_, hrest⟩
    dsimp only
    split <;> exact hg

theorem says_takeFrame (hp : v.conn.phase.isLeaving = false)
    (hl : frame.kind? = some .ping → frame.payload.length ≤ 125) :
    v.Says (Frame.payloadsOf .ping [frame]) (v.takeFrame frame) := by
  unfold takeFrame
  split
  · exact says_halt v rfl _ _
  · rename_i a ha
    rw [Assembler.payloadsOf_of_push ha]
    exact says_silence v rfl
  · rename_i a m ha
    have hm := Assembler.payloadsOf_of_push ha
    rw [Option.bind_some] at hm
    have hs : v.Says [] (v.setAssembler a, none) := says_silence v rfl
    rw [hm]
    refine hs.trans (says_obey (v := v.setAssembler a) hp ?_)
    intro payload hping
    rw [hping, Frame.payloadsOf_singleton] at hm
    split at hm
    · rename_i hk
      rw [Option.toList_some, List.cons.injEq] at hm
      exact hm.1 ▸ hl hk
    · simp at hm

theorem Says.congr {halt halt' : Option Halt} {x : Visit} (h : v.Says pings (w, halt))
    (hg : x.conn.given = w.conn.given) (hn : halt' = none → halt = none) :
    v.Says pings (x, halt') := by
  obtain ⟨replies, hgw, ht, ho, hd⟩ := h
  exact ⟨replies, hg.trans hgw, ht, fun h => ho (hn h), hd⟩

/-- Frame by frame the pings are answered, until one of the frames ends the visit. -/
theorem says_pump (hp : v.conn.phase.isLeaving = false) (bs : Bytes) :
    v.Says (Frame.payloadsOf .ping (Frame.split bs).1)
      ((Frame.pump takeFrame v bs).1, (Frame.pump takeFrame v bs).2.2.halt?) := by
  induction bs using Frame.split.induct generalizing v with
  | case1 bs e hd =>
    rw [Frame.split_of_error hd, Frame.pump_of_error hd]
    exact says_silence v rfl
  | case2 bs n hd =>
    rw [Frame.split_of_incomplete hd, Frame.pump_of_incomplete hd]
    exact says_silence v rfl
  | case3 bs frame n hd _ _ _ _ ih =>
    have hf := says_takeFrame (v := v) hp fun hk => Frame.length_of_isControl hd hk rfl
    rw [Frame.split_of_complete hd, Frame.payloadsOf_cons]
    rcases hst : v.takeFrame frame with ⟨w, _ | halt⟩
    · have hw := (v.takes_takeFrame frame).phase
      rw [hst] at hf hw
      rw [Frame.pump_of_step hd hst]
      exact hf.trans (ih (hw ▸ hp))
    · rw [hst] at hf
      rw [Frame.pump_of_halt hd hst]
      exact hf.of_halt _

theorem says_takeFrames (hp : v.conn.phase.isLeaving = false) :
    v.Says (Frame.payloadsOf .ping (Frame.split v.conn.inbox.staged).1) v.takeFrames := by
  have hs := says_pump hp v.conn.inbox.staged
  unfold takeFrames
  rcases hpe : Frame.pump takeFrame v v.conn.inbox.staged with ⟨w, staged, stop⟩
  rw [hpe] at hs
  cases stop with
  | halted halt => exact hs.congr rfl nofun
  | malformed e => exact hs.congr rfl nofun
  | starved n => exact hs.congr rfl fun _ => rfl

def Reports (v w : Visit) : Prop :=
  ∃ more, w.events = v.events ++ more ∧ ∀ id, .upgraded id ∉ more

theorem Reports.trans {x : Visit} (h : v.Reports w) (h' : w.Reports x) : v.Reports x := by
  obtain ⟨es, he, hn⟩ := h
  obtain ⟨es', he', hn'⟩ := h'
  refine ⟨es ++ es', by rw [he', he, Array.append_assoc], ?_⟩
  intro id hm
  exact (Array.mem_append.1 hm).elim (hn id) (hn' id)

theorem reports_of_eq (h : w.events = v.events) : v.Reports w := ⟨#[], by simp [h], nofun⟩

theorem reports_report {e : Event} (h : ∀ id, e ≠ .upgraded id) : v.Reports (v.report e) :=
  ⟨#[e], by simp [report], fun id hm => h id (Array.mem_singleton.1 hm).symm⟩

theorem reports_apply (v : Visit) (ps : List Pixel) : v.Reports (v.apply ps) := by
  unfold apply
  split
  · exact reports_of_eq rfl
  · have he : ∀ (es fs : Array Event) (e : Event), (es ++ fs).push e = es ++ fs.push e :=
      fun _ _ _ => Array.push_append
    refine ⟨_, he _ _ _, ?_⟩
    intro id hm
    rcases Array.mem_push.1 hm with hm | hm
    · obtain ⟨_, _, h⟩ := List.mem_map.1 (List.mem_toArray.1 hm)
      simp at h
    · simp at hm

theorem reports_reply (v : Visit) (bytes : Bytes) (next : Option Halt) :
    v.Reports (v.reply bytes next).1 := by
  unfold reply
  split <;> rename_i hs <;> exact reports_of_eq (congrArg (fun r => r.1.events) hs).symm

theorem reports_obey (v : Visit) (m : Message) : v.Reports (v.obey m).1 := by
  cases m with
  | binary payload => exact v.reports_apply _
  | text payload =>
    rw [obey]
    dsimp only
    split
    · have hr : v.Reports (v.report (.badText v.conn.id)) := reports_report (by simp)
      exact hr.trans (reports_apply _ _)
    · exact v.reports_apply _
  | ping payload => exact v.reports_reply _ _
  | close code =>
    have hr : v.Reports (v.report (.sentClose v.conn.id code)) := reports_report (by simp)
    have hs := (v.report (.sentClose v.conn.id code)).reports_reply
      (Frame.encode .close (Frame.closePayload Frame.closeNormal)) (some .leave)
    rw [obey]
    dsimp only
    split <;> exact hr.trans hs

theorem reports_takeFrame (v : Visit) (frame : Frame) : v.Reports (v.takeFrame frame).1 := by
  unfold takeFrame
  split
  · exact reports_of_eq rfl
  · exact reports_of_eq rfl
  · rename_i a m _
    have ha : v.Reports (v.setAssembler a) := reports_of_eq rfl
    exact ha.trans (reports_obey _ m)

theorem reports_takeFrames (v : Visit) : v.Reports v.takeFrames.1 := by
  have h : v.Reports (Frame.pump takeFrame v v.conn.inbox.staged).1 :=
    Frame.pump_invariant (fun w frame hw => hw.trans (w.reports_takeFrame frame))
      (reports_of_eq rfl) _
  unfold takeFrames
  dsimp only
  split <;> exact h.trans (reports_of_eq rfl)

theorem isSome_reply (v : Visit) (bytes : Bytes) (halt : Halt) :
    (v.reply bytes (some halt)).2.isSome = true := by
  unfold reply
  split <;> rfl

theorem given_send {bytes : Bytes} (hp : v.conn.phase.isLeaving = false)
    (h : v.send bytes = (w, none)) :
    w.conn.given = v.conn.given ++ bytes ∧ w.events = v.events ∧ w.canvas = v.canvas := by
  unfold Visit.send at h
  rcases hs : v.conn.send bytes with ⟨c, e⟩
  rw [hs, Prod.mk.injEq] at h
  obtain ⟨rfl, rfl⟩ := h
  exact ⟨Connection.given_send hs hp, rfl, rfl⟩

theorem events_sendPicture (v : Visit) : v.sendPicture.1.events = v.events := by
  unfold sendPicture
  split <;> rename_i hs <;> exact congrArg (fun r => r.1.events) hs.symm

theorem given_sendPicture (hp : v.conn.phase.isLeaving = false) (h : v.sendPicture.2 = none) :
    v.sendPicture.1.conn.given =
      v.conn.given ++ Frame.encode .binary v.canvas.snapshot.encode := by
  unfold sendPicture at h ⊢
  rcases hs : v.send (Frame.encode .binary v.canvas.snapshot.encode) with ⟨w, _ | e⟩
  · obtain ⟨phase, ha⟩ := w.conn.advance_eq .active
    have hg := (given_send hp hs).1
    dsimp only
    rw [ha]
    exact hg
  · rw [hs] at h
    simp at h

theorem reports_serve (v : Visit) (site : Option Site) (request : Request) :
    v.Reports (v.serve site request).1 ∧ (v.serve site request).2 ≠ none := by
  unfold serve
  split
  · exact ⟨reports_of_eq rfl, by simp⟩
  · rename_i site
    have hr : v.Reports (v.report (.served v.conn.id request.method request.path
      (site.respond request).length)) := reports_report (by simp)
    exact ⟨hr.trans (reports_reply _ _ _), Option.isSome_iff_ne_none.1 (isSome_reply _ _ _)⟩

/-- The picture is sent, an upgrade is reported, and then frames are read, unless the connection
fails before. -/
theorem picture_cases (v : Visit) (hp : v.conn.phase = .handshaking) :
    let result := match v.sendPicture with
      | (v, some e) => (v, some (.fail e))
      | (v, none) => (v.report (.upgraded v.conn.id)).takeFrames
    (v.Reports result.1 ∧ result.2 ≠ none) ∨ .upgraded v.conn.id ∈ result.1.events ∧ ∃ w : Visit,
      w.conn.given = v.conn.given ++ Frame.encode .binary v.canvas.snapshot.encode ∧
      w.Says (Frame.payloadsOf .ping (Frame.split v.conn.inbox.staged).1) result := by
  have hn : v.conn.phase.isLeaving = false := by rw [hp]; rfl
  have hev := v.events_sendPicture
  obtain ⟨hk, hin, -, hph⟩ := v.sendPicture_spec
  have hg := given_sendPicture hn
  rcases hs : v.sendPicture with ⟨w, _ | e⟩
  · right
    rw [hs] at hk hin hph hg
    have ha : w.conn.phase.isLeaving = false := by rw [hph hp rfl]; rfl
    obtain ⟨more, he, -⟩ := (w.report (.upgraded w.conn.id)).reports_takeFrames
    have hsays := says_takeFrames (v := w.report (.upgraded w.conn.id)) ha
    rw [← hk.id, ← hin]
    refine ⟨?_, w.report (.upgraded w.conn.id), hg rfl, hsays⟩
    dsimp only
    rw [he]
    exact Array.mem_append_left _ Array.mem_push_self
  · left
    rw [hs] at hev
    exact ⟨reports_of_eq hev, by simp⟩

/-- A visit of a connection whose request has not been answered. Either it stays so, and is sent no
frame, or it is sent the answer and the picture, is reported upgraded, and then reads frames. -/
theorem greet_cases (v : Visit) (site : Option Site) (hp : v.conn.phase = .handshaking) :
    (v.Reports (v.greet site).1 ∧ ((v.greet site).2 = none →
      (v.greet site).1.conn.phase = v.conn.phase ∧ (v.greet site).1.conn.given = v.conn.given)) ∨
    ∃ response n, Handshake.process v.conn.inbox.staged = .ok (.upgraded response n) ∧
      .upgraded v.conn.id ∈ (v.greet site).1.events ∧ ∃ w : Visit,
        w.conn.given = v.conn.given ++
          (response ++ Frame.encode .binary v.canvas.snapshot.encode) ∧
        w.Says (Frame.payloadsOf .ping (Frame.split (v.conn.inbox.staged.drop n)).1)
          (v.greet site) := by
  unfold greet
  split
  · exact .inl ⟨reports_of_eq rfl, by simp⟩
  · exact .inl ⟨reports_of_eq rfl, fun _ => ⟨rfl, rfl⟩⟩
  · rename_i request n _
    obtain ⟨hr, hn⟩ :=
      ((v.setStaged (v.conn.inbox.staged.drop n)).setMidUnit false).reports_serve site request
    have hv : v.Reports ((v.setStaged (v.conn.inbox.staged.drop n)).setMidUnit false) :=
      reports_of_eq rfl
    exact .inl ⟨hv.trans hr, fun h => absurd h hn⟩
  · rename_i response n hv
    have hn : (v.setStaged (v.conn.inbox.staged.drop n)).conn.phase.isLeaving = false := by
      change v.conn.phase.isLeaving = false
      rw [hp]
      rfl
    obtain ⟨hk, hph, hin, -⟩ := (v.setStaged (v.conn.inbox.staged.drop n)).send_spec response
    rcases hs : (v.setStaged (v.conn.inbox.staged.drop n)).send response with ⟨w, _ | e⟩
    · rw [hs] at hk hph hin
      obtain ⟨hg, hev, hcv⟩ := given_send hn hs
      dsimp only at hk hph hin ⊢
      have hid : w.conn.id = v.conn.id := hk.id
      rcases w.picture_cases (hph.trans hp) with ⟨hr, hne⟩ | ⟨hu, x, hx, hsays⟩
      · have hw : v.Reports w := reports_of_eq hev
        exact .inl ⟨hw.trans hr, fun h => absurd h hne⟩
      · rw [hid] at hu
        rw [hin] at hsays
        refine .inr ⟨response, n, hv, hu, x, ?_, hsays⟩
        rw [hx, hg, hcv, List.append_assoc]
        rfl
    · exact .inl ⟨reports_of_eq (congrArg (fun r => r.1.events) hs).symm, by simp⟩

theorem receive_of_active (v : Visit) (site : Option Site) (hp : v.conn.phase = .active)
    (more : Bytes) : v.Reports (v.receive site more).1 ∧
      v.Says (Frame.payloadsOf .ping (Frame.split (v.conn.inbox.staged ++ more)).1)
        (v.receive site more) := by
  have hn : v.conn.phase.isLeaving = false := by rw [hp]; rfl
  rcases v.receive_cases site hn more with ⟨-, e, h⟩ | h
  · rw [h]
    exact ⟨reports_of_eq rfl, says_halt v rfl _ _⟩
  · rw [h, if_neg (by rw [hp]; nofun)]
    have hr : v.Reports (v.setStaged (v.conn.inbox.staged ++ more)) := reports_of_eq rfl
    exact ⟨hr.trans (reports_takeFrames _), says_takeFrames (v := v.setStaged _) hn⟩

theorem receive_of_handshaking (v : Visit) (site : Option Site) (hp : v.conn.phase = .handshaking)
    (more : Bytes) :
    (v.Reports (v.receive site more).1 ∧ ((v.receive site more).2 = none →
      (v.receive site more).1.conn.phase = .handshaking ∧
        (v.receive site more).1.conn.given = v.conn.given)) ∨
    ∃ response n, Handshake.process (v.conn.inbox.staged ++ more) = .ok (.upgraded response n) ∧
      .upgraded v.conn.id ∈ (v.receive site more).1.events ∧ ∃ w : Visit,
        w.conn.given = v.conn.given ++
          (response ++ Frame.encode .binary v.canvas.snapshot.encode) ∧
        w.Says (Frame.payloadsOf .ping (Frame.split ((v.conn.inbox.staged ++ more).drop n)).1)
          (v.receive site more) := by
  rcases v.receive_cases site (by rw [hp]; rfl) more with ⟨-, e, h⟩ | h
  · rw [h]
    exact .inl ⟨reports_of_eq rfl, nofun⟩
  · rw [h, if_pos hp]
    rcases greet_cases (v.setStaged (v.conn.inbox.staged ++ more)) site hp with ⟨hr, hs⟩ | hu
    · exact .inl ⟨(reports_of_eq rfl).trans hr, fun hn => ⟨(hs hn).1.trans hp, (hs hn).2⟩⟩
    · exact .inr hu

end Visit

end SharedCanvas
