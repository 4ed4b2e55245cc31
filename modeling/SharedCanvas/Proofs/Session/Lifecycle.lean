import SharedCanvas.Proofs.Session.Gathering
import SharedCanvas.Proofs.Session.Transcript

namespace SharedCanvas

theorem Outbox.writeFrames_of_full {s : Socket} (h : ∀ frame, s.write frame = (.wouldBlock, s))
    (frames : List Bytes) : writeFrames frames s = (frames, s, none) := by
  cases frames with
  | nil => rw [writeFrames]
  | cons frame rest =>
    have hw := h frame
    rw [writeFrames]
    split <;> simp_all

namespace Connection

variable {c d : Connection} {bytes : Bytes}

theorem release_eq (c : Connection) : c.release =
    { c with phase := .closed, listed := false, socket := { c.socket with shut := true } } := by
  unfold release advance
  cases hp : c.phase <;> simp [Phase.rank, hp]

theorem rank_le_advance (c : Connection) (next : Phase) :
    c.phase.rank ≤ (c.advance next).phase.rank := by
  unfold advance
  split
  · exact Nat.le_of_lt ‹_›
  · exact Nat.le_refl _

theorem rank_le_release (c : Connection) : c.phase.rank ≤ c.release.phase.rank :=
  c.rank_le_advance .closed

/-- What has become of `c` in a visit that is not settled yet. -/
structure GoesOn (c d : Connection) : Prop where
  going : d.phase.isLeaving = false
  rank : c.phase.rank ≤ d.phase.rank
  filled : d.IsFilled

theorem preserves_goesOn (c : Connection) : Visit.Preserves c.GoesOn := by
  refine ⟨⟨?_, fun hd _ => ⟨hd.going, hd.rank, hd.filled⟩,
    fun _ hd => ⟨hd.going, hd.rank, hd.filled⟩⟩, ?_,
    fun hd _ => ⟨hd.going, hd.rank, hd.filled⟩, fun hd _ => ⟨hd.going, hd.rank, hd.filled⟩⟩
  · intro d bytes hd
    have hp := (d.send_keeps bytes).2.2.1
    exact ⟨hp ▸ hd.going, hp ▸ hd.rank, hd.filled.send bytes⟩
  · intro d hd
    refine ⟨?_, Nat.le_trans hd.rank (d.rank_le_advance .active), ?_⟩
    · unfold advance
      split
      · rfl
      · exact hd.going
    · obtain ⟨phase, hp⟩ := d.advance_eq .active
      rw [hp]
      exact hd.filled

end Connection

/-- How a visit of a listed connection can end: it goes on, is closed, or is closing and has bytes
that wait. -/
theorem Room.settle_cases {c : Connection} (hl : c.listed = true) (hp : c.phase.isLeaving = false)
    (halt : Option Halt) : halt = none ∧ (settle c halt).1 = c ∨ (settle c halt).1 = c.release ∨
      c.outbox.frames ≠ [] ∧ (settle c halt).1 = { c with phase := .closing } := by
  rcases halt with _ | _ | e
  · exact .inl ⟨rfl, rfl⟩
  · right
    have ha : c.advance .closing = { c with phase := .closing } := by
      unfold Connection.advance
      cases hph : c.phase with
      | handshaking => rfl
      | active => rfl
      | closing => simp [hph, Phase.isLeaving, Phase.rank] at hp
      | closed => simp [hph, Phase.isLeaving, Phase.rank] at hp
    rw [settle, Connection.finish, Connection.closeAfterFlush, ha]
    cases hf : c.outbox.frames with
    | nil =>
      left
      dsimp only [List.isEmpty_nil]
      rw [Connection.teardown_of_listed (c := { c with phase := .closing }) hl]
      exact (Connection.release_eq _).trans c.release_eq.symm
    | cons frame rest => exact .inr ⟨List.cons_ne_nil _ _, rfl⟩
  · exact .inr (.inl (by rw [settle_fail hl]))

namespace Connection

variable {c d : Connection} {canvas : Canvas} {site : Option Site} {shown : List Snapshot}
  {heard heard' : List Bytes}

theorem post_cases (hl : c.listed = true) (bytes : Bytes) :
    (c.post bytes).1 = (c.send bytes).1 ∨ (c.post bytes).1 = (c.send bytes).1.release := by
  have hk := (c.send_keeps bytes).2.1
  unfold post
  rcases hs : c.send bytes with ⟨d, _ | e⟩
  · exact .inl rfl
  · rw [hs] at hk
    dsimp only
    rw [drop_of_listed (hk.trans hl)]
    exact .inr rfl

theorem writable_cases (hl : c.listed = true) : c.writable.1 = c.write.1.release ∨
    c.writable.1 = c.write.1 ∧ (c.phase = .closing → c.write.1.outbox.frames ≠ []) := by
  have hw : c.write.1.listed = true := hl
  have hp : c.write.1.phase = c.phase := rfl
  unfold writable flush
  rcases hc : c.write with ⟨d, _ | e⟩
  · rw [hc] at hw hp
    dsimp only at hw hp ⊢
    rw [← hp]
    cases hf : d.outbox.frames with
    | nil =>
      by_cases hd : d.phase = .closing
      · simp [hd, teardown_of_listed hw]
      · simp [hd]
    | cons frame rest => simp
  · rw [hc] at hw
    dsimp only
    rw [drop_of_listed hw]
    exact .inl rfl

theorem writable_of_closing (hl : c.listed = true) (hp : c.phase = .closing)
    (hw : c.writable.1.outbox.frames = []) :
    c.writable.1.listed = false ∧ c.writable.1.phase = .closed := by
  rcases writable_cases hl with h | ⟨h, hf⟩
  · rw [h]
    exact ⟨rfl, phase_release _⟩
  · rw [h] at hw
    exact absurd hw (hf hp)

/-- The connection was given the answer to its request and the picture before anything else. -/
def IsGreeted (c : Connection) (picture : Snapshot) (heard : Bytes) : Prop :=
  ∃ response n rest, Handshake.process heard = .ok (.upgraded response n) ∧
    c.given = response ++ (Frame.encode .binary picture.encode ++ rest)

/-- A connection between two tasks, from which `heard` has come. -/
structure Lives (shown : List Snapshot) (heard : List Bytes) (c : Connection) : Prop where
  listed : c.listed = true ↔ c.phase ≠ .closed
  waits : c.phase = .closing → c.outbox.frames ≠ []
  filled : c.IsFilled
  stages : c.phase.isLeaving = false → c.Stages heard.flatten
  silent : c.phase = .handshaking → c.given = []
  greeted : c.phase = .active → ∃ picture ∈ shown, c.IsGreeted picture heard.flatten

theorem Lives.closed (h : c.Lives shown heard) (hl : c.listed = false) : c.phase = .closed := by
  apply Classical.byContradiction
  intro hp
  rw [h.listed.2 hp] at hl
  cases hl

theorem lives_of_isLeaving (hp : c.phase.isLeaving = true)
    (hl : c.listed = true ↔ c.phase ≠ .closed)
    (hw : c.phase = .closing → c.outbox.frames ≠ []) (hf : c.IsFilled) : c.Lives shown heard := by
  obtain ⟨hh, ha⟩ := ne_of_isLeaving hp
  refine ⟨hl, hw, hf, ?_, fun h => absurd h hh, fun h => absurd h ha⟩
  intro hn
  rw [hp] at hn
  simp at hn

theorem lives_release (hf : c.IsFilled) : c.release.Lives shown heard := by
  rw [release_eq]
  exact lives_of_isLeaving rfl (by simp) nofun hf

theorem Lives.of_eq (h : c.Lives shown heard) (picture : Snapshot) (hp : d.phase = c.phase)
    (hl : d.listed = c.listed) (hi : d.inbox = c.inbox) (hf : d.IsFilled)
    (hw : d.phase = .closing → d.outbox.frames ≠ [])
    (hg : ∃ more, d.given = c.given ++ more ∧ (d.phase = .handshaking → more = [])) :
    d.Lives (picture :: shown) heard := by
  obtain ⟨more, hg, hm⟩ := hg
  refine ⟨by rw [hl, hp]; exact h.listed, hw, hf, ?_, ?_, ?_⟩
  · intro hd
    exact (h.stages (hp ▸ hd)).of_eq hp hi
  · intro hd
    rw [hg, hm hd, h.silent (hp ▸ hd)]
    rfl
  · intro hd
    obtain ⟨picture, hpic, response, n, rest, hr, hgc⟩ := h.greeted (hp ▸ hd)
    refine ⟨picture, List.mem_cons_of_mem _ hpic, response, n, rest ++ more, hr, ?_⟩
    rw [hg, hgc, List.append_assoc, List.append_assoc]

/-- A visit that goes on queues nothing before the answer, and then the picture that the canvas
shows. -/
theorem Lives.greets (h : c.Lives shown heard) (hp : c.phase.isLeaving = false) (bytes : Bytes)
    {v : Visit} (hv : (Visit.mk canvas c #[]).receive site bytes = (v, none)) :
    (v.conn.phase = .handshaking → v.conn.given = []) ∧ (v.conn.phase = .active →
      ∃ picture ∈ canvas.snapshot :: shown, v.conn.IsGreeted picture (heard.flatten ++ bytes)) := by
  have hst := h.stages hp
  obtain ⟨-, -, hws⟩ := Visit.stages_receive (v := ⟨canvas, c, #[]⟩) site hst bytes
  have hrank := ((preserves_goesOn c).receive (v := ⟨canvas, c, #[]⟩)
    ⟨hp, Nat.le_refl _, h.filled⟩ site bytes).rank
  rcases hst with ⟨hph, -, hstaged⟩ | ⟨hph, -⟩
  -- The request is still to be completed, or was before this visit.
  · have hcases := (Visit.mk canvas c #[]).receive_of_handshaking site hph bytes
    rw [hv] at hcases hws
    dsimp only at hcases
    rcases hcases with ⟨-, hgo⟩ | ⟨response, n, hreq, -, w, hw, replies, hg, -⟩
    · obtain ⟨hd, hg⟩ := hgo rfl
      exact ⟨fun _ => hg.trans (h.silent hph), fun ha => absurd (hd.symm.trans ha) nofun⟩
    · rw [hstaged] at hreq
      constructor
      · intro hd
        rcases hws rfl with ⟨-, hi, -⟩ | ⟨ha, -⟩
        · rw [hreq] at hi
          simp at hi
        · exact absurd (hd.symm.trans ha) nofun
      · intro _
        refine ⟨_, List.mem_cons_self, response, n, replies.flatMap Reply.bytes, hreq, ?_⟩
        rw [hg, hw, h.silent hph, List.nil_append, List.append_assoc]
  · obtain ⟨-, replies, hg, -⟩ := (Visit.mk canvas c #[]).receive_of_active site hph bytes
    rw [hv] at hg hrank
    constructor
    · intro hd
      rw [hph, hd] at hrank
      simp [Phase.rank] at hrank
    · intro _
      obtain ⟨picture, hpic, response, n, rest, hr, hgc⟩ := h.greeted hph
      refine ⟨picture, List.mem_cons_of_mem _ hpic, response, n,
        rest ++ replies.flatMap Reply.bytes, ?_, ?_⟩
      · exact (Handshake.process_append (by rw [hr]; simp) bytes).trans hr
      · rw [hg, hgc, List.append_assoc, List.append_assoc]

theorem Lives.visited (h : c.Lives shown heard) (hl : c.listed = true) (canvas : Canvas)
    (site : Option Site) (bytes : Bytes) :
    (c.visited canvas site bytes).1.Lives (canvas.snapshot :: shown) (heard ++ [bytes]) ∧
      c.phase.rank ≤ (c.visited canvas site bytes).1.phase.rank := by
  cases hp : c.phase.isLeaving with
  | true =>
    rw [visited_of_isLeaving hp]
    exact ⟨lives_of_isLeaving hp h.listed h.waits h.filled, Nat.le_refl _⟩
  | false =>
    obtain ⟨hvl, -, hws⟩ := Visit.stages_receive (v := ⟨canvas, c, #[]⟩) site (h.stages hp) bytes
    have hgo := (preserves_goesOn c).receive (v := ⟨canvas, c, #[]⟩)
      ⟨hp, Nat.le_refl _, h.filled⟩ site bytes
    have hheard : (heard ++ [bytes]).flatten = heard.flatten ++ bytes := by simp
    rw [Connection.visited]
    rcases hv : (Visit.mk canvas c #[]).receive site bytes with ⟨v, halt⟩
    rw [hv] at hvl hws hgo
    dsimp only at hvl hws hgo ⊢
    rcases Room.settle_cases (hvl.trans hl) hgo.going halt with ⟨rfl, hs⟩ | hs | ⟨hf, hs⟩
    -- The visit goes on, is closed, or leaves with something that waits.
    · obtain ⟨hsil, hgreet⟩ := h.greets hp bytes hv
      have hnc : v.conn.phase ≠ .closing ∧ v.conn.phase ≠ .closed := by
        constructor <;> intro he <;> have hg := hgo.going <;> rw [he] at hg <;> cases hg
      rw [hs]
      refine ⟨⟨iff_of_true (hvl.trans hl) hnc.2, fun he => absurd he hnc.1, hgo.filled, ?_,
        hsil, ?_⟩, hgo.rank⟩
      · intro _
        rw [hheard]
        exact hws rfl
      · rw [hheard]
        exact hgreet
    · rw [hs]
      exact ⟨lives_release hgo.filled, Nat.le_trans hgo.rank v.conn.rank_le_release⟩
    · rw [hs]
      refine ⟨lives_of_isLeaving rfl (iff_of_true (hvl.trans hl) (by simp)) (fun _ => hf)
        hgo.filled, ?_⟩
      have hr : c.phase.rank < Phase.closing.rank := by
        simpa [Phase.isLeaving] using hp
      exact Nat.le_of_lt hr

/-- A move takes no connection back, and leaves it as a connection is between two tasks. -/
theorem Lives.moves (h : c.Lives shown heard) (hm : c.Moves canvas site heard heard' d) :
    d.Lives (canvas.snapshot :: shown) heard' ∧ c.phase.rank ≤ d.phase.rank := by
  have hnil : ∃ more, c.given = c.given ++ more ∧ (c.phase = .handshaking → more = []) :=
    ⟨[], (List.append_nil _).symm, fun _ => rfl⟩
  cases hm with
  | rest => exact ⟨h.of_eq _ rfl rfl rfl h.filled h.waits hnil, Nat.le_refl _⟩
  | missed hl bytes =>
    have hp : c.phase.isLeaving = true := by rw [h.closed hl]; rfl
    exact ⟨lives_of_isLeaving hp h.listed h.waits h.filled, Nat.le_refl _⟩
  | visited hl bytes => exact h.visited hl canvas site bytes
  | released hl => exact ⟨lives_release h.filled, c.rank_le_release⟩
  | writable hl =>
    rcases writable_cases hl with hw | ⟨hw, hf⟩
    · rw [hw]
      exact ⟨lives_release h.filled.write, c.write.1.rank_le_release⟩
    · rw [hw]
      refine ⟨h.of_eq _ rfl rfl rfl h.filled.write hf ⟨[], ?_, fun _ => rfl⟩, Nat.le_refl _⟩
      rw [c.given_write, List.append_nil]
  | posted hl ha frame =>
    obtain ⟨-, hsl, hsp, hsi, -⟩ := c.send_keeps frame
    rcases post_cases hl frame with hs | hs
    · rw [hs]
      have hne : ∀ phase, phase ≠ .active → (c.send frame).1.phase ≠ phase := by
        intro phase hn he
        exact hn (he.symm.trans (hsp.trans ha))
      refine ⟨h.of_eq _ hsp hsl hsi (h.filled.send frame) (fun he => absurd he (hne _ nofun)) ?_,
        Nat.le_of_eq (congrArg Phase.rank hsp.symm)⟩
      rcases c.given_send_or frame with hg | hg
      · exact ⟨[], hg.trans (List.append_nil _).symm, fun _ => rfl⟩
      · exact ⟨frame, hg, fun he => absurd he (hne _ nofun)⟩
    · rw [hs]
      refine ⟨lives_release (h.filled.send frame), ?_⟩
      rw [← hsp]
      exact rank_le_release _
  | stood standing => exact ⟨h.of_eq _ rfl rfl rfl h.filled h.waits hnil, Nat.le_refl _⟩

theorem phase_visited_of_full {request : Bytes} {r : Request} {n : Nat} (canvas : Canvas)
    (site : Site) (hp : c.phase = .handshaking) (hs : c.inbox.staged = [])
    (ho : c.outbox.frames = []) (hw : ∀ frame, c.socket.write frame = (.wouldBlock, c.socket))
    (hr : Handshake.process request = .ok (.plain r n)) (hc : request.length ≤ c.inbox.capacity)
    (hne : site.respond r ≠ []) (hlim : (site.respond r).length ≤ c.outbox.limit) :
    (c.visited canvas (some site) request).1.phase = .closing := by
  have hsend : ∀ inbox, Connection.send { c with inbox } (site.respond r) =
      ({ c with inbox, outbox := { c.outbox with frames := [site.respond r] } }, none) := by
    intro inbox
    rcases Connection.send_cases { c with inbox } (site.respond r) with ⟨hb, -⟩ | ⟨hlt, -⟩ | hs
    · rw [hp] at hb
      exact absurd (hb.resolve_right nofun) hne
    · rw [Outbox.queued, ho] at hlt
      simp at hlt
      omega
    · rw [hs, Connection.write, Outbox.flush, Outbox.writeFrames_of_full hw, ho]
      rfl
  rcases (Visit.mk canvas c #[]).receive_cases (some site) (by rw [hp]; rfl) request with
    ⟨hlt, -⟩ | hrec
  · dsimp only at hlt
    rw [hs, List.length_nil, Nat.zero_add] at hlt
    omega
  · rw [hs, List.nil_append, if_pos hp] at hrec
    rw [Connection.visited, hrec]
    simp only [Visit.greet, Visit.setStaged, hr, Visit.serve, Visit.setMidUnit, Visit.report,
      Visit.reply, Visit.send, hsend]
    simp [Room.settle, finish, closeAfterFlush, advance, hp, Phase.rank]

end Connection

namespace Gathering

variable {s t : Gathering} {room : Room} {c : Connection}

theorem lives_newcomer (room : Room) (shown : List Snapshot) (id : Nat) (peer : String)
    {socket : Socket} (hs : socket.received = []) :
    (room.newcomer id peer socket).Lives shown [] := by
  refine ⟨iff_of_true rfl nofun, nofun, nofun, fun _ => .inl ⟨rfl, rfl, rfl⟩, fun _ => ?_, nofun⟩
  rw [Connection.given, Room.newcomer, Connection.new, hs]
  rfl

/-- Between two tasks every connection lives as it should, and the room is in order. -/
theorem Reachable.lives (h : Reachable s) : s.room.Orderly ∧
    ∀ c ∈ s.room.connections, c.Lives s.shown (s.heard c.id) := by
  obtain ⟨room, hr, hrun⟩ := h
  exact (forall_of_run hr hrun (fun shown id peer _ hs => lives_newcomer room shown id peer hs)
    fun h hm => (h.moves hm).1).2

theorem Reachable.run (h : Reachable s) (hr : Run s t) : Reachable t := by
  obtain ⟨room, hc, hrun⟩ := h
  exact ⟨room, hc, hrun.trans hr⟩

theorem exists_of_run (h : Reachable s) (hr : Run s t) (hc : c ∈ s.room.connections) :
    ∃ d, t.room.connection? c.id = some d ∧ c.phase.rank ≤ d.phase.rank := by
  induction hr with
  | refl => exact ⟨c, h.lives.1.connection?_eq hc, Nat.le_refl _⟩
  | @step t u hrun hst ih =>
    obtain ⟨d, hd, hle⟩ := ih
    obtain ⟨hdm, hdi⟩ := Room.mem_of_connection? hd
    obtain ⟨ho, hlives⟩ := (h.run hrun).lives
    obtain ⟨ho', -⟩ := (h.run (hrun.step hst)).lives
    have hfind : ∀ e ∈ u.room.connections, e.id = d.id → d.phase.rank ≤ e.phase.rank →
        ∃ d, u.room.connection? c.id = some d ∧ c.phase.rank ≤ d.phase.rank := by
      intro e he hi hr
      refine ⟨e, ?_, Nat.le_trans hle hr⟩
      rw [← hdi, ← hi]
      exact ho'.connection?_eq he
    rcases hst.cases ho with ⟨f, hf, hm⟩ | ⟨id, peer, socket, e, -, -, -, -, hconn, -⟩
    · refine hfind (f d) (hf ▸ List.mem_map_of_mem hdm) (hm d hdm).member.1 ?_
      exact ((hlives d hdm).moves (hm d hdm)).2
    · exact hfind d (hconn ▸ List.mem_append_left [e] hdm) rfl (Nat.le_refl _)

/-- Whatever is done in a room: it has no more members than it takes. Whoever was taken in is in the
registry just until it is closed, and whatever is done later, its phase does not go back. Whoever is
active has been given the answer to its own request, and then a picture that the canvas has shown,
before anything else. For whoever is closing something waits, and it is closed by the write that
empties its outbox. Whoever comes when the room is full is refused, and nothing changes. -/
theorem lifecycle (hs : Reachable s) (hr : Run s t) :
    s.room.memberCount ≤ s.room.maxClients ∧ t.room.maxClients = s.room.maxClients ∧
    (∀ c ∈ s.room.connections, (c.listed = true ↔ c.phase ≠ .closed) ∧
      (∃ d, t.room.connection? c.id = some d ∧ c.phase.rank ≤ d.phase.rank) ∧
      (c.phase = .active → ∃ picture ∈ s.shown, ∃ key n rest,
        let response := Handshake.upgradeResponse (Handshake.acceptKey key)
        Handshake.process (s.heard c.id).flatten = .ok (.upgraded response n) ∧
          c.given = response ++ (Frame.encode .binary picture.encode ++ rest)) ∧
      (c.listed = true → c.phase = .closing → c.outbox.frames ≠ [] ∧ 0 < c.outbox.queued ∧
        (c.writable.1.outbox.frames = [] →
          c.writable.1.listed = false ∧ c.writable.1.phase = .closed))) ∧
    ∀ id peer socket, s.room.maxClients ≤ s.room.memberCount →
      (s.room.perform (.connect id peer socket)).1 = s.room := by
  obtain ⟨ho, hlives⟩ := hs.lives
  refine ⟨ho.crowd, ?_, ?_, ?_⟩
  · induction hr with
    | refl => rfl
    | step _ hst ih =>
      obtain ⟨_, _, _, ht⟩ := hst.room_eq
      rw [ht, ← ih]
  · intro c hc
    have hl := hlives c hc
    refine ⟨hl.listed, exists_of_run hs hr hc, ?_, ?_⟩
    · intro ha
      obtain ⟨picture, hpic, response, n, rest, hreq, hg⟩ := hl.greeted ha
      obtain ⟨-, _, key, -, -, rfl⟩ := Handshake.exists_key_of_process hreq
      exact ⟨picture, hpic, key, n, rest, hreq, hg⟩
    · intro hli hp
      exact ⟨hl.waits hp, hl.filled.queued_pos (hl.waits hp), Connection.writable_of_closing hli hp⟩
  · intro id peer socket hfull
    rcases s.room.accept_cases id peer socket with h | ⟨hlt, -⟩
    · exact h
    · omega

/-- One client is upgraded and then torn down. Another asks for a page and reads nothing. -/
theorem lifecycle_one_client : (∃ s t, Reachable s ∧ Run s t ∧ ∃ c ∈ s.room.connections,
      c.phase = .active ∧ (∃ picture ∈ s.shown, ∃ response rest,
        c.given = response ++ (Frame.encode .binary picture.encode ++ rest)) ∧
      (∃ d, t.room.connection? c.id = some d ∧ c.phase.rank ≤ d.phase.rank) ∧
      (s.room.perform (.connect 2 "peer" .fresh)).1 = s.room) ∧
    ∃ s, Reachable s ∧ ∃ c ∈ s.room.connections, c.phase = .closing ∧ 0 < c.outbox.queued := by
  let canvas : Canvas := ⟨2, 1, .replicate 2 Palette.white, .replicate 2 none, 0, rfl, rfl,
    fun _ hc => (Array.mem_replicate.1 hc).2 ▸ Palette.has_white, by decide⟩
  let room := Room.new canvas 1 1024 4096 (some ⟨[], .empty⟩)
  constructor
  · obtain ⟨request, hr, hl⟩ : ∃ request, Handshake.IsUpgrade request ∧ request.length ≤ 1024 :=
      ⟨_, Handshake.isUpgrade_upgradeRequest, by decide +kernel⟩
    obtain ⟨s, hs, ⟨_, _, hroom⟩, -, hconn⟩ :=
      exists_reachable_visited room .fresh request rfl Nat.zero_lt_one rfl rfl
    let client := room.newcomer 1 "peer" .fresh
    have hp : (Frame.encode .binary room.canvas.snapshot.encode).length ≤ 4096 := by
      rw [Frame.encode, Frame.length_encodeWith, Snapshot.length_encode,
        Canvas.length_pixels_snapshot]
      decide
    have hi : client.IsIdle := ⟨⟨rfl, rfl, rfl⟩, rfl⟩
    obtain ⟨hph, -⟩ := hi.visited_of_isUpgrade room.canvas room.site rfl rfl hr hl (by decide) hp
    obtain ⟨c, hone, hph⟩ : ∃ c, s.room.connections = [c] ∧ c.phase = .active := ⟨_, hconn, hph⟩
    have hc : c ∈ s.room.connections := by rw [hone]; exact List.mem_singleton_self c
    have hrun : Run s _ := (Run.refl s).step (.teardownAll s .shutdown)
    obtain ⟨-, -, hall, hfull⟩ := lifecycle hs hrun
    obtain ⟨hlisted, hlater, hgreet, -⟩ := hall c hc
    obtain ⟨picture, hpic, key, n, rest, -, hg⟩ := hgreet hph
    refine ⟨s, _, hs, hrun, c, hc, hph, ⟨picture, hpic, _, rest, hg⟩, hlater,
      hfull 2 "peer" .fresh ?_⟩
    have hl : c.listed = true := hlisted.2 (by rw [hph]; decide)
    rw [Room.memberCount_eq, hone, List.countP_singleton, if_pos hl, hroom]
    exact Nat.le_refl 1
  · let request := Bytes.ofString "GET / HTTP/1.1\r\n\r\n"
    obtain ⟨s, hs, -, -, hconn⟩ :=
      exists_reachable_visited room ⟨[], .full, [], false, none⟩ request rfl Nat.zero_lt_one rfl rfl
    obtain ⟨r, hp, hr, hl⟩ : ∃ r, Handshake.process request = .ok (.plain r 18) ∧
        Site.respond ⟨[], .empty⟩ r ≠ [] ∧ (Site.respond ⟨[], .empty⟩ r).length ≤ 4096 :=
      ⟨⟨"GET", "/", "HTTP/1.1", []⟩, by decide +kernel, by decide +kernel, by decide +kernel⟩
    have hph := Connection.phase_visited_of_full
      (c := room.newcomer 1 "peer" ⟨[], .full, [], false, none⟩)
      room.canvas ⟨[], .empty⟩ rfl rfl rfl (fun _ => rfl) hp (by decide +kernel) hr hl
    obtain ⟨c, hone, hph⟩ : ∃ c, s.room.connections = [c] ∧ c.phase = .closing := ⟨_, hconn, hph⟩
    have hc : c ∈ s.room.connections := by rw [hone]; exact List.mem_singleton_self c
    obtain ⟨-, -, hall, -⟩ := lifecycle hs (.refl s)
    obtain ⟨hlisted, -, -, hwaits⟩ := hall c hc
    exact ⟨s, hs, c, hc, hph, (hwaits (hlisted.2 (by rw [hph]; decide)) hph).2.1⟩

end Gathering
end SharedCanvas
