import SharedCanvas.Proofs.Session.Answers

namespace SharedCanvas
open Reply (Talk OpenTalk)

def pingsBehind (n : Nat) (heard : Bytes) : List Bytes :=
  Frame.payloadsOf .ping (Frame.split (heard.drop n)).1

theorem prefix_pingsBehind {n : Nat} {heard : Bytes} (h : n ≤ heard.length) (more : Bytes) :
    pingsBehind n heard <+: pingsBehind n (heard ++ more) := by
  rw [pingsBehind, pingsBehind, List.drop_append_of_le_length h]
  exact ((Frame.prefix_split_append _ _).filter _).map _

namespace Connection

variable {c d : Connection} {picture : Snapshot} {heard : Bytes} {opened : Option Snapshot}

/-- A connection was upgraded by its peer's first `n` bytes and has been sent so many replies. -/
structure Speech (c : Connection) (picture : Snapshot) (heard response : Bytes) (n : Nat)
    (replies : List Reply) : Prop where
  request : Handshake.process heard = .ok (.upgraded response n)
  given : c.given = response ++ (Frame.encode .binary picture.encode ++
    replies.flatMap Reply.bytes)
  talk : Talk (pingsBehind n heard) replies
  going : c.phase = .active → OpenTalk (pingsBehind n heard) replies ∧ c.Stages heard

/-- What a connection has been given that showed `opened` when it became active, if it did. -/
def Accounts (c : Connection) (heard : Bytes) : Option Snapshot → Prop
  | none => c.phase ≠ .active ∧
    (c.phase = .handshaking → c.listed = true ∧ c.given = [] ∧ c.Stages heard)
  | some picture => c.phase ≠ .handshaking ∧
    ∃ response n replies, c.Speech picture heard response n replies

/-- Nothing was queued for the peer. The connection has left or is where it was. -/
structure Stays (c d : Connection) : Prop where
  id : d.id = c.id
  listed : d.listed = true → c.listed = true
  given : d.given = c.given
  phase : d.phase.isLeaving = true ∨
    d.phase = c.phase ∧ d.inbox = c.inbox ∧ d.listed = c.listed

theorem Stays.refl (c : Connection) : c.Stays c := ⟨rfl, fun h => h, rfl, .inr ⟨rfl, rfl, rfl⟩⟩

theorem stays_release (hl : c.listed = true) : c.Stays c.release :=
  ⟨c.id_release, fun _ => hl, c.given_release, .inl (by rw [c.phase_release]; rfl)⟩

theorem stays_teardown (c : Connection) (reason : Reason) : c.Stays (c.teardown reason).1 := by
  unfold teardown
  split
  · exact stays_release ‹_›
  · exact .refl c

theorem stays_write (c : Connection) : c.Stays c.write.1 :=
  ⟨rfl, fun h => h, c.given_write, .inr ⟨rfl, rfl, rfl⟩⟩

theorem Stays.trans {e : Connection} (h : c.Stays d) (h' : d.Stays e) : c.Stays e := by
  refine ⟨h'.id.trans h.id, fun hl => h.listed (h'.listed hl), h'.given.trans h.given, ?_⟩
  rcases h'.phase with hp | ⟨hp, hi, hl⟩
  · exact .inl hp
  · rcases h.phase with hp' | ⟨hp', hi', hl'⟩
    · exact .inl (hp ▸ hp')
    · exact .inr ⟨hp.trans hp', hi.trans hi', hl.trans hl'⟩

theorem stays_writable (c : Connection) : c.Stays c.writable.1 := by
  have hw := c.stays_write
  unfold writable flush
  rcases hwr : c.write with ⟨d, _ | e⟩
  · rw [hwr] at hw
    dsimp only
    split
    · simp_all
    · rename_i hd
      rw [Prod.mk.injEq] at hd
      rw [← hd.1]
      exact hw.trans (d.stays_teardown .handshakeComplete)
    · rename_i hd
      rw [Prod.mk.injEq] at hd
      rw [← hd.1]
      exact hw
  · rw [hwr] at hw
    exact hw.trans (d.stays_teardown (.error e))

theorem stays_settle (hl : c.listed = true) (halt : Option Halt) :
    c.Stays (Room.settle c halt).1 ∧
      (halt.isSome = true → (Room.settle c halt).1.phase.isLeaving = true) := by
  rcases halt with _ | _ | e
  · exact ⟨.refl c, nofun⟩
  · obtain ⟨phase, hp, hs⟩ := Room.settle_leave hl
    have hc : c.Stays { c with phase } := ⟨rfl, fun h => h, rfl, .inl hp⟩
    rw [hs]
    split
    · exact ⟨hc.trans (stays_release hl), fun _ => by rw [phase_release]; rfl⟩
    · exact ⟨hc, fun _ => hp⟩
  · rw [Room.settle_fail hl]
    exact ⟨stays_release hl, fun _ => by rw [phase_release]; rfl⟩

theorem upgraded_not_mem_settle (hl : c.listed = true) (halt : Option Halt) (id : Nat) :
    .upgraded id ∉ (Room.settle c halt).2 := by
  rcases halt with _ | _ | e
  · simp [Room.settle]
  · obtain ⟨phase, -, hs⟩ := Room.settle_leave hl
    rw [hs]
    split <;> simp
  · simp [Room.settle_fail hl]

theorem ne_of_isLeaving (h : c.phase.isLeaving = true) :
    c.phase ≠ .handshaking ∧ c.phase ≠ .active := by
  constructor <;> intro hp <;> simp [hp, Phase.isLeaving, Phase.rank] at h

theorem Stages.of_eq (h : c.Stages heard) (hp : d.phase = c.phase) (hi : d.inbox = c.inbox) :
    d.Stages heard := by
  rw [Stages, hp, hi]
  exact h

theorem Accounts.stays (h : c.Accounts heard opened) (hs : c.Stays d) :
    d.Accounts heard opened := by
  cases opened with
  | none =>
    rcases hs.phase with hp | ⟨hp, hi, hl⟩
    · have hn := ne_of_isLeaving hp
      exact ⟨hn.2, fun hh => absurd hh hn.1⟩
    · refine ⟨hp ▸ h.1, ?_⟩
      intro hh
      obtain ⟨hcl, hg, hst⟩ := h.2 (hp ▸ hh)
      exact ⟨hl.trans hcl, hs.given.trans hg, hst.of_eq hp hi⟩
  | some picture =>
    obtain ⟨hn, response, n, replies, hsp⟩ := h
    have hsp' : (d.phase = .active → c.phase = .active ∧ d.inbox = c.inbox) := by
      intro ha
      rcases hs.phase with hp | ⟨hp, hi, -⟩
      · exact absurd ha (ne_of_isLeaving hp).2
      · exact ⟨hp ▸ ha, hi⟩
    refine ⟨?_, response, n, replies, hsp.request, hs.given.trans hsp.given, hsp.talk, ?_⟩
    · rcases hs.phase with hp | ⟨hp, -, -⟩
      · exact (ne_of_isLeaving hp).1
      · exact hp ▸ hn
    · intro ha
      obtain ⟨hca, hi⟩ := hsp' ha
      obtain ⟨ho, hst⟩ := hsp.going hca
      exact ⟨ho, hst.of_eq (ha.trans hca.symm) hi⟩

theorem Accounts.hears (h : c.Accounts heard opened) (hp : c.phase.isLeaving = true)
    (more : Bytes) : c.Accounts (heard ++ more) opened := by
  have hn := ne_of_isLeaving hp
  cases opened with
  | none => exact ⟨hn.2, fun hh => absurd hh hn.1⟩
  | some picture =>
    obtain ⟨-, response, n, replies, hs⟩ := h
    have hi : Handshake.process heard ≠ .ok .incomplete := by rw [hs.request]; nofun
    have hle : n ≤ heard.length := Handshake.consumed_le_length hs.request nofun
    refine ⟨hn.1, response, n, replies, (Handshake.process_append hi more).trans hs.request,
      hs.given, hs.talk.mono (prefix_pingsBehind hle more), fun ha => absurd ha hn.2⟩

theorem Speech.append {response : Bytes} {n : Nat} {replies more : List Reply}
    (hs : c.Speech picture heard response n replies) (ha : c.phase = .active)
    (hg : d.given = c.given ++ more.flatMap Reply.bytes) (ht : Talk [] more)
    (ho : d.phase = .active → OpenTalk [] more ∧ d.Stages heard) :
    d.Speech picture heard response n (replies ++ more) := by
  obtain ⟨hopen, -⟩ := hs.going ha
  have hnil : pingsBehind n heard ++ [] = pingsBehind n heard := List.append_nil _
  refine ⟨hs.request, ?_, hnil ▸ hopen.append_talk ht, fun hd => ?_⟩
  · rw [hg, hs.given, List.flatMap_append, List.append_assoc, List.append_assoc]
  · exact ⟨hnil ▸ hopen.append (ho hd).1, (ho hd).2⟩

theorem Accounts.post (h : c.Accounts heard opened) (hl : c.listed = true) (ha : c.phase = .active)
    {r : Reply} (hr : OpenTalk [] [r]) : (c.post r.bytes).1.Accounts heard opened := by
  cases opened with
  | none => exact absurd ha h.1
  | some picture =>
    obtain ⟨-, response, n, replies, hs⟩ := h
    have hst := (hs.going ha).2
    have hk := c.send_keeps r.bytes
    have hg := c.given_send_or r.bytes
    unfold Connection.post
    rcases hsend : c.send r.bytes with ⟨d, _ | e⟩
    · rw [hsend] at hk
      have hd := given_send hsend (by rw [ha]; rfl)
      have hpd : d.phase = .active := hk.2.2.1.trans ha
      refine ⟨by rw [hpd]; nofun, response, n, replies ++ [r],
        hs.append ha (by simpa using hd) hr.talk fun _ => ⟨hr, ?_⟩⟩
      exact hst.of_eq hk.2.2.1 hk.2.2.2.1
    · rw [hsend] at hk hg
      have hstay : d.Stays (d.drop e).1 := d.stays_teardown (.error e)
      have hleave : (d.drop e).1.phase.isLeaving = true := by
        rw [drop_of_listed (hk.2.1.trans hl), phase_release]
        rfl
      obtain ⟨hnh, hna⟩ := ne_of_isLeaving hleave
      -- The reply may have been queued before the socket failed.
      obtain ⟨more, ht, hm⟩ : ∃ more, Talk [] more ∧
          d.given = c.given ++ more.flatMap Reply.bytes := by
        rcases hg with hg | hg
        · exact ⟨[], Reply.openTalk_nil.talk, by simpa using hg⟩
        · exact ⟨[r], hr.talk, by simpa using hg⟩
      exact ⟨hnh, response, n, replies ++ more, hs.append ha (hstay.given.trans hm) ht
        fun hd => absurd hd hna⟩

end Connection

namespace Visit

theorem Reports.not_mem {v w : Visit} (h : v.Reports w) (he : v.events = #[]) (id : Nat) :
    .upgraded id ∉ w.events := by
  obtain ⟨more, hm, hn⟩ := h
  rw [hm, he, Array.empty_append]
  exact hn id

theorem stages_receive {v : Visit} {bs : Bytes} (site : Option Site) (hs : v.conn.Stages bs)
    (more : Bytes) : (v.receive site more).1.conn.listed = v.conn.listed ∧
      (v.receive site more).1.conn.id = v.conn.id ∧
      ((v.receive site more).2 = none → (v.receive site more).1.conn.Stages (bs ++ more)) := by
  have h := v.receive_spec site hs more
  split at h
  · obtain ⟨e, h, -⟩ := h
    rw [h]
    exact ⟨rfl, rfl, nofun⟩
  · exact ⟨h.keeps.listed, h.keeps.id, h.stages⟩

end Visit

namespace Connection

variable {c d : Connection} {heard : Bytes} {opened : Option Snapshot}

theorem Stages.pingsBehind_append {response : Bytes} {n : Nat} (h : c.Stages heard)
    (hr : Handshake.process heard = .ok (.upgraded response n)) (more : Bytes) :
    pingsBehind n (heard ++ more) = pingsBehind n heard ++
      Frame.payloadsOf .ping (Frame.split (c.inbox.staged ++ more)).1 := by
  have hle : n ≤ heard.length := Handshake.consumed_le_length hr nofun
  rcases h with ⟨-, hi, -⟩ | ⟨-, response', n', hr', hs, hst⟩
  · rw [hr] at hi
    simp at hi
  · rw [hr, Except.ok.injEq, Handshake.Verdict.upgraded.injEq] at hr'
    rw [← hr'.2] at hs hst
    rw [pingsBehind, pingsBehind, List.drop_append_of_le_length hle, Frame.split_append hs, hst,
      Frame.payloadsOf_append]

/-- The connection after a visit in which bytes came, and what was reported. -/
def visited (c : Connection) (canvas : Canvas) (site : Option Site) (bytes : Bytes) :
    Connection × List Event :=
  let (v, halt) := (Visit.mk canvas c #[]).receive site bytes
  let (c, events) := Room.settle v.conn halt
  (c, v.events.toList ++ events)

theorem visited_of_isLeaving (hp : c.phase.isLeaving = true) (canvas : Canvas) (site : Option Site)
    (more : Bytes) : c.visited canvas site more = (c, []) := by
  rw [visited, Visit.receive, if_pos hp]
  rfl

/-- A connection that has been given the answer, the picture and replies has an account when the
visit ends; while the visit goes on it is past the request. -/
theorem accounts_settle {picture : Snapshot} {response : Bytes} {n : Nat} {replies : List Reply}
    {halt : Option Halt} (hl : c.listed = true)
    (hr : Handshake.process heard = .ok (.upgraded response n))
    (hg : c.given = response ++
      (Frame.encode .binary picture.encode ++ replies.flatMap Reply.bytes))
    (ht : Talk (pingsBehind n heard) replies)
    (ho : halt = none → OpenTalk (pingsBehind n heard) replies ∧ c.Stages heard) :
    (Room.settle c halt).1.Accounts heard (some picture) := by
  obtain ⟨hstay, hleave⟩ := stays_settle hl halt
  cases halt with
  | some halt =>
    have hn := ne_of_isLeaving (hleave rfl)
    exact ⟨hn.1, response, n, replies, hr, hstay.given.trans hg, ht, fun ha => absurd ha hn.2⟩
  | none =>
    obtain ⟨hopen, hst⟩ := ho rfl
    refine ⟨?_, response, n, replies, hr, hg, ht, fun _ => ⟨hopen, hst⟩⟩
    rcases hst with ⟨-, hi, -⟩ | ⟨ha, -⟩
    · rw [hr] at hi
      simp at hi
    · change c.phase ≠ .handshaking
      rw [ha]
      simp

/-- A connection whose request has not been answered stays without an account, or begins one with
the picture of the canvas. -/
theorem Accounts.visited_of_handshaking (h : c.Accounts heard none) (hp : c.phase = .handshaking)
    (canvas : Canvas) (site : Option Site) (more : Bytes) :
    .upgraded c.id ∉ (c.visited canvas site more).2 ∧
        (c.visited canvas site more).1.Accounts (heard ++ more) none ∨
      .upgraded c.id ∈ (c.visited canvas site more).2 ∧
        (c.visited canvas site more).1.Accounts (heard ++ more) (some canvas.snapshot) := by
  obtain ⟨hl, hg, hst⟩ := h.2 hp
  have hheard : c.inbox.staged = heard := by
    rcases hst with ⟨-, -, hst⟩ | ⟨ha, -⟩
    · exact hst
    · exact absurd ha h.1
  obtain ⟨hwl, -, hws⟩ := Visit.stages_receive (v := ⟨canvas, c, #[]⟩) site hst more
  have hcases := (Visit.mk canvas c #[]).receive_of_handshaking site hp more
  unfold visited
  generalize (Visit.mk canvas c #[]).receive site more = result at hwl hws hcases ⊢
  obtain ⟨w, halt⟩ := result
  obtain ⟨hstay, hleave⟩ := stays_settle (hwl.trans hl) halt
  have hset := upgraded_not_mem_settle (hwl.trans hl) halt c.id
  dsimp only at hcases hws hwl ⊢
  rw [List.mem_append, Array.mem_toList_iff]
  rcases hcases with ⟨hr, hgo⟩ | ⟨response, n, hreq, hup, u, hu, replies, hw, ht, ho, -⟩
  · refine .inl ⟨not_or.2 ⟨hr.not_mem rfl _, hset⟩, ?_⟩
    cases halt with
    | some halt =>
      have hn := ne_of_isLeaving (hleave rfl)
      exact ⟨hn.2, fun hh => absurd hh hn.1⟩
    | none =>
      obtain ⟨hph, hwg⟩ := hgo rfl
      refine ⟨?_, fun _ => ⟨hwl.trans hl, hwg.trans hg, hws rfl⟩⟩
      change w.conn.phase ≠ .active
      rw [hph]
      nofun
  · rw [hheard] at hreq ht ho
    have hgiven : w.conn.given = response ++ (Frame.encode .binary canvas.snapshot.encode ++
        replies.flatMap Reply.bytes) := by
      rw [hw, hu, hg, List.nil_append, List.append_assoc]
    exact .inr ⟨.inl hup, accounts_settle (hwl.trans hl) hreq hgiven ht fun hn => ⟨ho hn, hws hn⟩⟩

theorem Accounts.visited_of_active {picture : Snapshot} (h : c.Accounts heard (some picture))
    (hl : c.listed = true) (hp : c.phase = .active) (canvas : Canvas) (site : Option Site)
    (more : Bytes) : .upgraded c.id ∉ (c.visited canvas site more).2 ∧
      (c.visited canvas site more).1.Accounts (heard ++ more) (some picture) := by
  obtain ⟨-, response, n, replies, hs⟩ := h
  obtain ⟨hopen, hst⟩ := hs.going hp
  have hi : Handshake.process heard ≠ .ok .incomplete := by rw [hs.request]; simp
  have hreq := (Handshake.process_append hi more).trans hs.request
  have hpings := hst.pingsBehind_append hs.request more
  obtain ⟨hwl, -, hws⟩ := Visit.stages_receive (v := ⟨canvas, c, #[]⟩) site hst more
  have hcases := (Visit.mk canvas c #[]).receive_of_active site hp more
  unfold visited
  generalize (Visit.mk canvas c #[]).receive site more = result at hwl hws hcases ⊢
  obtain ⟨w, halt⟩ := result
  have hset := upgraded_not_mem_settle (hwl.trans hl) halt c.id
  obtain ⟨hr, said, hw, ht, ho, -⟩ := hcases
  dsimp only at hw hws ⊢
  rw [List.mem_append, Array.mem_toList_iff]
  refine ⟨not_or.2 ⟨hr.not_mem rfl _, hset⟩, ?_⟩
  have hg : w.conn.given = response ++ (Frame.encode .binary picture.encode ++
      (replies ++ said).flatMap Reply.bytes) := by
    rw [hw, hs.given, List.flatMap_append, List.append_assoc, List.append_assoc]
  exact accounts_settle (hwl.trans hl) hreq hg (hpings ▸ hopen.append_talk ht) fun hn =>
    ⟨hpings ▸ hopen.append (ho hn), hws hn⟩

theorem Accounts.cases (h : c.Accounts heard opened) (hp : ¬ c.phase.isLeaving = true) :
    c.Stages heard ∧ (c.phase = .handshaking ∧ opened = none ∨
      c.phase = .active ∧ ∃ picture, opened = some picture) := by
  cases hph : c.phase with
  | handshaking =>
    cases opened with
    | none => exact ⟨(h.2 hph).2.2, .inl ⟨rfl, rfl⟩⟩
    | some picture => exact absurd hph h.1
  | active =>
    cases opened with
    | none => exact absurd hph h.1
    | some picture =>
      obtain ⟨-, response, n, replies, hs⟩ := h
      exact ⟨(hs.going hph).2, .inr ⟨rfl, picture, rfl⟩⟩
  | closing => simp [hph, Phase.isLeaving, Phase.rank] at hp
  | closed => simp [hph, Phase.isLeaving, Phase.rank] at hp

/-- A visit keeps the account. It notes the picture of the canvas if it reports an upgrade. -/
theorem Accounts.visited (h : c.Accounts heard opened) (hl : c.listed = true) (canvas : Canvas)
    (site : Option Site) (more : Bytes) :
    (c.visited canvas site more).1.Accounts (heard ++ more)
      (if .upgraded c.id ∈ (c.visited canvas site more).2 then some canvas.snapshot
        else opened) := by
  by_cases hp : c.phase.isLeaving = true
  · rw [visited_of_isLeaving hp, if_neg List.not_mem_nil]
    exact h.hears hp more
  · rcases (h.cases hp).2 with ⟨hph, rfl⟩ | ⟨hph, picture, rfl⟩
    · rcases h.visited_of_handshaking hph canvas site more with ⟨hn, ha⟩ | ⟨hu, ha⟩
      · rw [if_neg hn]
        exact ha
      · rw [if_pos hu]
        exact ha
    · obtain ⟨hn, ha⟩ := h.visited_of_active hl hph canvas site more
      rw [if_neg hn]
      exact ha

theorem Accounts.visited_keeps (h : c.Accounts heard opened) (hl : c.listed = true)
    (canvas : Canvas) (site : Option Site) (more : Bytes) :
    (c.visited canvas site more).1.id = c.id ∧ ((c.visited canvas site more).1.phase = .active →
      (c.visited canvas site more).1.listed = true) := by
  by_cases hp : c.phase.isLeaving = true
  · rw [visited_of_isLeaving hp]
    exact ⟨rfl, fun _ => hl⟩
  · obtain ⟨hwl, hwi, -⟩ := Visit.stages_receive (v := ⟨canvas, c, #[]⟩) site (h.cases hp).1 more
    obtain ⟨hstay, -⟩ := stays_settle (hwl.trans hl) ((Visit.mk canvas c #[]).receive site more).2
    refine ⟨hstay.id.trans hwi, ?_⟩
    intro ha
    rcases hstay.phase with hn | ⟨-, -, hls⟩
    · exact absurd ha (ne_of_isLeaving hn).2
    · exact hls.trans (hwl.trans hl)

end Connection
end SharedCanvas
