import SharedCanvas.Proofs.Session.Confined

namespace SharedCanvas

namespace Visit
open Connection

/-- Of the replies of a visit that goes on only pongs are left. -/
theorem Says.queues {v w : Visit} {pings : List Bytes} {halt : Option Halt}
    (h : v.Says pings (w, halt)) (hi : w.conn.id = v.conn.id)
    (hl : w.conn.listed = v.conn.listed) (hv : v.conn.listed = true) :
    ∃ said : List Bytes, (∀ ping ∈ said, ping.length ≤ 125) ∧
      v.conn.Queues (said.flatMap (Frame.encode .pong)) (Room.settle w.conn halt).1 := by
  obtain ⟨hstay, hleave⟩ := stays_settle (hl.trans hv) halt
  cases halt with
  | some halt =>
    refine ⟨[], nofun, hstay.id.trans hi, fun _ => hv, fun ha => ?_⟩
    exact absurd ha (ne_of_isLeaving (hleave rfl)).2
  | none =>
    obtain ⟨replies, hg, -, ho, hd⟩ := h
    obtain ⟨hsound, -, hgoing⟩ := ho rfl
    obtain ⟨said, rfl⟩ : ∃ said : List Bytes, replies = said.map .pong := by
      clear hg ho hsound
      induction replies with
      | nil => exact ⟨[], rfl⟩
      | cons x replies ih =>
        obtain ⟨said, rfl⟩ := ih (fun p hm => hd p (List.mem_cons_of_mem _ hm))
          fun hm => hgoing (List.mem_cons_of_mem _ hm)
        cases x with
        | delta payload => exact absurd List.mem_cons_self (hd payload)
        | pong payload => exact ⟨payload :: said, rfl⟩
        | close => exact absurd List.mem_cons_self hgoing
    refine ⟨said, ?_, hi, fun _ => hv, fun _ => ⟨hl, ?_⟩⟩
    · intro ping hp
      exact (hsound _ (List.mem_map_of_mem hp)).control rfl
    · change w.conn.given = _
      rw [hg, List.flatMap_map]
      rfl

theorem sendPicture_mk (v : Visit) (events : Array Event) :
    (Visit.mk v.canvas v.conn events).sendPicture =
      (⟨v.sendPicture.1.canvas, v.sendPicture.1.conn, events⟩, v.sendPicture.2) := by
  unfold sendPicture Visit.send
  rcases v.conn.send (Frame.encode .binary v.canvas.snapshot.encode) with ⟨c, _ | e⟩ <;> rfl

/-- The connection is sent the picture on its way, and becomes active by that. Before that it is
queued nothing of account, and after that nothing but pongs. -/
def Opens (canvas : Canvas) (c d : Connection) : Prop :=
  ∃ b e : Connection, ∃ said : List Bytes, c.Rests b ∧ b.listed = true ∧
    (Visit.mk canvas b #[]).sendPicture = (⟨canvas, e, #[]⟩, none) ∧ e.phase = .active ∧
    (∀ ping ∈ said, ping.length ≤ 125) ∧ e.Queues (said.flatMap (Frame.encode .pong)) d

theorem opens_greet {v : Visit} (site : Option Site) (hp : v.conn.phase = .handshaking)
    (hl : v.conn.listed = true) :
    (Room.settle (v.greet site).1.conn (v.greet site).2).1.phase ≠ .active ∨
      Opens v.canvas v.conn (Room.settle (v.greet site).1.conn (v.greet site).2).1 := by
  have hmember := (preserves_member v.conn.id v.conn.listed).greet (v := v) ⟨rfl, rfl⟩ site
  have hleft : ∀ result : Visit × Option Halt, result.1.conn.listed = v.conn.listed →
      result.2 ≠ none → (Room.settle result.1.conn result.2).1.phase ≠ .active := by
    intro result hr hne
    have hleave := (stays_settle (hr.trans hl) result.2).2 (Option.isSome_iff_ne_none.2 hne)
    exact (ne_of_isLeaving hleave).2
  revert hmember
  unfold greet
  split
  · exact fun hmember => .inl (hleft _ hmember.2 nofun)
  · intro _
    left
    change v.conn.phase ≠ .active
    rw [hp]
    nofun
  · rename_i request n _
    intro hmember
    exact .inl (hleft _ hmember.2 (((v.setStaged (v.conn.inbox.staged.drop n)).setMidUnit
      false).reports_serve site request).2)
  · rename_i response n hv
    have hn : (v.setStaged (v.conn.inbox.staged.drop n)).conn.phase.isLeaving = false := by
      change v.conn.phase.isLeaving = false
      rw [hp]
      rfl
    obtain ⟨hk, hph, -, -⟩ := (v.setStaged (v.conn.inbox.staged.drop n)).send_spec response
    rcases hs : (v.setStaged (v.conn.inbox.staged.drop n)).send response with ⟨w, _ | e⟩
    · rw [hs] at hk hph
      obtain ⟨-, -, hcanvas⟩ := given_send hn hs
      obtain ⟨hkw, -, -, hact⟩ := w.sendPicture_spec
      have hpic := w.sendPicture_mk #[]
      have hsame := w.canvas_sendPicture
      dsimp only at hk hph ⊢
      rcases hw : w.sendPicture with ⟨w', _ | e⟩
      · rw [hw] at hkw hact hpic hsame
        dsimp only at hkw hact hpic hsame ⊢
        intro hmember
        have ha : w'.conn.phase = .active := hact (hph.trans hp) rfl
        have hsays := says_takeFrames (v := w'.report (.upgraded w'.conn.id))
          (by change w'.conn.phase.isLeaving = false; rw [ha]; rfl)
        have hne : w.conn.phase ≠ .active := by rw [hph]; exact hp ▸ nofun
        obtain ⟨said, hsaid, hq⟩ := hsays.queues (hmember.1.trans (hkw.id.trans hk.id).symm)
            (hmember.2.trans (hkw.listed.trans hk.listed).symm)
            ((hkw.listed.trans hk.listed).trans hl)
        refine .inr ⟨w.conn, w'.conn, said, ⟨⟨hk.id, fun _ => hl, fun h => absurd h hne⟩,
          fun h => absurd h hne⟩, hk.listed.trans hl, ?_, ha, hsaid, hq⟩
        rw [hsame, hcanvas] at hpic
        exact hpic
      · intro hmember
        exact .inl (hleft _ hmember.2 nofun)
    · intro hmember
      exact .inl (hleft _ hmember.2 nofun)

end Visit

namespace Connection

variable {c : Connection}

/-- What a visit does to a connection: it does not make it active, or it sends it the picture.
Beside that it queues nothing but pongs. -/
theorem visited_cases (hl : c.listed = true) (canvas : Canvas) (site : Option Site)
    (bytes : Bytes) : (∃ said : List Bytes, (∀ ping ∈ said, ping.length ≤ 125) ∧
      c.Queues (said.flatMap (Frame.encode .pong)) (c.visited canvas site bytes).1 ∧
        ((c.visited canvas site bytes).1.phase = .active → c.phase = .active)) ∨
    Visit.Opens canvas c (c.visited canvas site bytes).1 := by
  have hmember := (preserves_member c.id c.listed).receive (v := ⟨canvas, c, #[]⟩) ⟨rfl, rfl⟩ site
    bytes
  -- Whoever is not active in the end was queued nothing that counts.
  have hnot : (c.visited canvas site bytes).1.phase ≠ .active →
      ∃ said : List Bytes, (∀ ping ∈ said, ping.length ≤ 125) ∧
        c.Queues (said.flatMap (Frame.encode .pong)) (c.visited canvas site bytes).1 ∧
          ((c.visited canvas site bytes).1.phase = .active → c.phase = .active) :=
    fun hn => ⟨[], nofun, ⟨(visited_spec canvas site hl bytes).1, fun _ => hl,
      fun ha => absurd ha hn⟩, fun ha => absurd ha hn⟩
  by_cases hlv : c.phase.isLeaving = true
  · left
    apply hnot
    rw [visited_of_isLeaving hlv]
    exact (ne_of_isLeaving hlv).2
  · cases hp : c.phase with
    | active =>
      obtain ⟨-, hsays⟩ := (Visit.mk canvas c #[]).receive_of_active site hp bytes
      obtain ⟨said, hsaid, hq⟩ := hsays.queues hmember.1 hmember.2 hl
      exact .inl ⟨said, hsaid, hq, fun _ => rfl⟩
    | handshaking =>
      rcases (Visit.mk canvas c #[]).receive_cases site (by rw [hp]; rfl) bytes with ⟨-, e, hr⟩ | hr
      · refine .inl (hp ▸ hnot ?_)
        have hleave := (stays_settle hl (some (.fail e))).2 rfl
        rw [visited, hr]
        exact (ne_of_isLeaving hleave).2
      · rw [if_pos hp] at hr
        have hg := Visit.opens_greet
          (v := (Visit.mk canvas c #[]).setStaged (c.inbox.staged ++ bytes)) site hp hl
        rw [← hr] at hg
        rcases hg with hne | ⟨b, e, said, hrest, h⟩
        · exact .inl (hp ▸ hnot hne)
        · -- What waits to be read does not matter here.
          exact .inr ⟨b, e, said, ⟨⟨hrest.1.id, hrest.1.listed, hrest.1.active⟩, hrest.2⟩, h⟩
    | closing => simp [hp, Phase.isLeaving, Phase.rank] at hlv
    | closed => simp [hp, Phase.isLeaving, Phase.rank] at hlv

end Connection
end SharedCanvas
