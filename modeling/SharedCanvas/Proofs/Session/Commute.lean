import SharedCanvas.Proofs.Session.Confined

namespace SharedCanvas
open Pixel (Touch)

namespace Room

variable {r : Room} {a b c : Connection}

theorem put_comm (h : a.id ≠ b.id) : (r.put a).put b = (r.put b).put a := by
  rw [put, put, put, put, List.map_map, List.map_map]
  congr 1
  apply List.map_congr_left
  intro d _
  simp only [Function.comp]
  by_cases ha : d.id = a.id
  · simp [ha, h]
  · by_cases hb : d.id = b.id
    · simp [hb, h.symm]
    · simp [ha, hb]

theorem Orderly.member?_eq (h : r.Orderly) (hc : c ∈ r.connections) (hl : c.listed = true) :
    r.member? c.id = some c := by
  rw [member?, h.connection?_eq hc, Option.filter_some, if_pos hl]

/-- In every room where it is a member, an active connection becomes the same with these bytes, and
has the same painted. -/
theorem exists_receive_eq (r : Room) (hl : c.listed = true) (hp : c.phase = .active)
    (bytes : Bytes) : ∃ ms d, ms <+: c.finishes bytes ∧ d.id = c.id ∧
      ∀ t : Room, t.site = r.site → t.member? c.id = some c →
        (t.perform (.data c.id bytes)).1 =
          { t.put d with canvas := (t.canvas.paintAll (ms.flatMap Message.pixels)).1 } := by
  obtain ⟨ms, d, halt, ha, ho⟩ := Visit.acts_receive hp r.site bytes
  have hv : ∀ canvas : Canvas, (c.visited canvas r.site bytes).1 = (settle d halt).1 ∧
      ((Visit.mk canvas c #[]).receive r.site bytes).1.canvas =
        (canvas.paintAll (ms.flatMap Message.pixels)).1 := by
    intro canvas
    obtain ⟨events, he⟩ := ha canvas #[]
    dsimp only at he
    rw [Connection.visited, he]
    exact ⟨rfl, rfl⟩
  refine ⟨ms, (settle d halt).1, ho.1, ?_, fun t ht hm => ?_⟩
  · rw [← (hv r.canvas).1]
    exact (Connection.visited_spec r.canvas r.site hl bytes).1
  · obtain ⟨hd, hc⟩ := hv t.canvas
    rw [perform, receive_eq_visited hm, ht, hd, hc]

end Room

namespace Gathering

variable {s : Gathering} {a b : Connection}

/-- Bytes of two active connections come to the same in either order, errors and closes included,
but for the cells that both have painted. If there are none, they come to the same altogether. -/
theorem tasks_commute (h : Reachable s) (ha : a ∈ s.room.connections) (hb : b ∈ s.room.connections)
    (hne : a.id ≠ b.id) (hap : a.phase = .active) (hbp : b.phase = .active) (x y : Bytes) :
    let r := s.room
    let ab := ((r.perform (.data a.id x)).1.perform (.data b.id y)).1
    let ba := ((r.perform (.data b.id y)).1.perform (.data a.id x)).1
    ab = { ba with canvas := ab.canvas } ∧
    ∃ ps qs,
      (∃ ms, ms <+: a.finishes x ∧ ps = r.canvas.accepted (ms.flatMap Message.pixels)) ∧
      (∃ ms, ms <+: b.finishes y ∧ qs = r.canvas.accepted (ms.flatMap Message.pixels)) ∧
      (r.perform (.data a.id x)).1.canvas = (r.canvas.paintAll ps).1 ∧
      (r.perform (.data b.id y)).1.canvas = (r.canvas.paintAll qs).1 ∧
      ab.canvas.version = ba.canvas.version ∧
      (∀ i j, ¬ (Touch ps i j ∧ Touch qs i j) →
        ab.canvas.get? i j = ba.canvas.get? i j ∧
          ab.canvas.pendingAt i j = ba.canvas.pendingAt i j) ∧
      ((∀ i j, ¬ (Touch ps i j ∧ Touch qs i j)) → ab = ba) := by
  intro r ab ba
  obtain ⟨ho, -⟩ := h.lives
  have hal := ho.listed a ha hap
  have hbl := ho.listed b hb hbp
  have hma : r.member? a.id = some a := ho.member?_eq ha hal
  have hmb : r.member? b.id = some b := ho.member?_eq hb hbl
  obtain ⟨ms, a', hms, ha', hA⟩ := r.exists_receive_eq hal hap x
  obtain ⟨ns, b', hns, hb', hB⟩ := r.exists_receive_eq hbl hbp y
  generalize hps : ms.flatMap Message.pixels = ps at hA
  generalize hqs : ns.flatMap Message.pixels = qs at hB
  -- Whoever comes second finds the other changed, but itself as it was.
  have hab : ab =
      { (r.put a').put b' with canvas := ((r.canvas.paintAll ps).1.paintAll qs).1 } := by
    refine (congrArg (fun t => (Room.perform t (.data b.id y)).1) (hA r rfl hma)).trans
      (hB _ rfl ?_)
    rw [← hmb, Room.member?, Room.member?]
    exact congrArg _ (Room.connection?_put_of_ne (ha' ▸ hne.symm))
  have hba : ba =
      { (r.put b').put a' with canvas := ((r.canvas.paintAll qs).1.paintAll ps).1 } := by
    refine (congrArg (fun t => (Room.perform t (.data a.id x)).1) (hB r rfl hmb)).trans
      (hA _ rfl ?_)
    rw [← hma, Room.member?, Room.member?]
    exact congrArg _ (Room.connection?_put_of_ne (hb' ▸ hne))
  have hput : (r.put a').put b' = (r.put b').put a' := Room.put_comm (by rw [ha', hb']; exact hne)
  obtain ⟨hw, hh, hv, hcells⟩ := r.canvas.paintAll_comm ps qs
  refine ⟨by rw [hab, hba, hput], r.canvas.accepted ps, r.canvas.accepted qs,
    ⟨ms, hms, by rw [hps]⟩, ⟨ns, hns, by rw [hqs]⟩, ?_, ?_, ?_, ?_, ?_⟩
  · rw [hA r rfl hma, Canvas.paintAll_accepted]
  · rw [hB r rfl hmb, Canvas.paintAll_accepted]
  · rw [hab, hba]
    exact hv
  · rw [hab, hba]
    exact hcells
  · intro hd
    have hc := Canvas.ext_cells hw hh hv (fun i j => (hcells i j (hd i j)).1)
      fun i j => (hcells i j (hd i j)).2
    rw [hab, hba, hput, hc]

theorem Reachable.exists_active (h : Reachable s) {c : Connection} {request : Bytes}
    (hc : s.room.connection? c.id = some c) (hlist : c.listed = true) (hi : c.IsIdle)
    (hp : c.phase = .handshaking) (hs : c.inbox.staged = []) (hr : Handshake.IsUpgrade request)
    (hcap : request.length ≤ c.inbox.capacity) (hl : 129 ≤ c.outbox.limit)
    (hl' : s.room.canvas.area + 14 ≤ c.outbox.limit) :
    ∃ t, Reachable t ∧ t.room.canvas.width = s.room.canvas.width ∧
      t.room.canvas.height = s.room.canvas.height ∧
      (∀ i ≠ c.id, t.room.connection? i = s.room.connection? i) ∧
        ∃ d, t.room.connection? c.id = some d ∧ d.id = c.id ∧ d.phase = .active ∧
          d.inbox.staged = [] ∧ d.inbox.assembler = c.inbox.assembler := by
  have hpic : (Frame.encode .binary s.room.canvas.snapshot.encode).length ≤ c.outbox.limit := by
    have hf := (Frame.length_encode_bounds .binary s.room.canvas.snapshot.encode).2
    rw [Snapshot.length_encode, Canvas.length_pixels_snapshot, Snapshot.headerLength] at hf
    omega
  have hm : s.room.member? c.id = some c := by
    rw [Room.member?, hc, Option.filter_some, if_pos hlist]
  obtain ⟨hph, hid⟩ := hi.visited_of_isUpgrade s.room.canvas s.room.site hp hs hr hcap hl hpic
  have hin := hi.inbox_visited_of_isUpgrade s.room.canvas s.room.site hp hs hr hcap hl hpic
  have hsize := s.room.sameSize_perform (.data c.id request)
  have hroom : (s.room.perform (.data c.id request)).1 = _ := Room.receive_eq_visited hm request
  refine ⟨_, h.run (.step (.refl s) (.data s c.id request)), hsize.1, hsize.2, fun i hi => ?_,
    (c.visited s.room.canvas s.room.site request).1, ?_, hid, hph, ?_, ?_⟩
  · dsimp only [goOn]
    rw [hroom]
    exact Room.connection?_put_of_ne (hid.symm ▸ hi)
  · dsimp only [goOn]
    rw [hroom]
    exact Room.connection?_put hc hid
  · rw [hin]
    exact hs
  · rw [hin]

/-- Two clients paint a cell each. -/
theorem tasks_commute_two_painters : ∃ s, Reachable s ∧
    ∃ a ∈ s.room.connections, ∃ b ∈ s.room.connections, a.id ≠ b.id ∧ a.phase = .active ∧
      b.phase = .active ∧
        let painting : UInt16 → Bytes := fun column =>
          Frame.encodeMasked .binary (Pixel.record ⟨column, 0, 5⟩) ⟨1, 2, 3, 4⟩
        ((s.room.perform (.data a.id (painting 0))).1.perform (.data b.id (painting 1))).1 =
          ((s.room.perform (.data b.id (painting 1))).1.perform (.data a.id (painting 0))).1 := by
  let canvas : Canvas := ⟨2, 1, .replicate 2 Palette.white, .replicate 2 none, 0, rfl, rfl,
    fun _ hc => (Array.mem_replicate.1 hc).2 ▸ Palette.has_white, by decide⟩
  let room := Room.new canvas 2 1024 4096 none
  have hr := Handshake.isUpgrade_upgradeRequest
  have hlen : (Handshake.upgradeRequest "h" "/" "k").length ≤ 1024 := by decide +kernel
  have hi : ∀ id, (room.newcomer id "peer" .fresh).IsIdle := fun _ => ⟨⟨rfl, rfl, rfl⟩, rfl⟩
  obtain ⟨s, hs, hone, htwo, hcanvas⟩ : ∃ s, Reachable s ∧
      s.room.connection? 1 = some (room.newcomer 1 "peer" .fresh) ∧
      s.room.connection? 2 = some (room.newcomer 2 "peer" .fresh) ∧ s.room.canvas = canvas :=
    ⟨_, ⟨room, rfl, ((Run.refl _).step (.connect _ 1 "peer" .fresh rfl rfl)).step
      (.connect _ 2 "peer" .fresh rfl rfl)⟩, rfl, rfl, rfl⟩
  obtain ⟨t, ht, hw, hh, hrest, a, ha, haid, hap, has, haa⟩ := hs.exists_active hone rfl (hi 1) rfl
    rfl hr hlen (by decide) (by rw [hcanvas]; decide)
  obtain ⟨u, hu, -, -, hrest', b, hb, hbid, hbp, hbs, hba⟩ := ht.exists_active
    ((hrest 2 (by decide)).trans htwo) rfl (hi 2) rfl rfl hr hlen (by decide)
    (by rw [Canvas.area_eq_of_eq hw hh, hcanvas]; decide)
  have ham := (Room.mem_of_connection? ((hrest' 1 (by decide)).trans ha)).1
  have hbm := (Room.mem_of_connection? hb).1
  have hne : a.id ≠ b.id := by rw [haid, hbid]; decide
  let painting : UInt16 → Bytes := fun column =>
    Frame.encodeMasked .binary (Pixel.record ⟨column, 0, 5⟩) ⟨1, 2, 3, 4⟩
  have hfinish : ∀ {c : Connection} {bs : Bytes}, c.phase = .active → c.inbox.staged = [] →
      c.inbox.assembler = .new 1024 → c.finishes bs = Session.messages (.new 1024) bs := by
    intro c bs hp hs ha
    rw [Connection.finishes, hp]
    dsimp only
    rw [hs, ha, List.nil_append]
  -- Whatever is painted for a message of one pixel is that pixel.
  have hcolumn : ∀ {c : Canvas} {ms : List Message} {q : Pixel} (p : Pixel),
      ms <+: [.binary p.record] → q ∈ c.accepted (ms.flatMap Message.pixels) → q = p := by
    intro c ms q p hms hq
    obtain ⟨m, hm, hqm⟩ := List.mem_flatMap.1 (List.mem_of_mem_filter hq)
    rw [List.mem_singleton.1 (hms.subset hm), Message.pixels, ← List.append_nil p.record,
      Pixel.ofRecords_record_append] at hqm
    exact List.mem_singleton.1 hqm
  obtain ⟨-, ps, qs, ⟨ms, hms, hps⟩, ⟨ns, hns, hqs⟩, -, -, -, -, hcomm⟩ :=
    tasks_commute hu ham hbm hne hap hbp (painting 0) (painting 1)
  refine ⟨u, hu, a, ham, b, hbm, hne, hap, hbp, hcomm ?_⟩
  rw [hfinish hap has haa, show Session.messages (.new 1024) (painting 0) =
    [.binary (Pixel.record ⟨0, 0, 5⟩)] by decide +kernel] at hms
  rw [hfinish hbp hbs hba, show Session.messages (.new 1024) (painting 1) =
    [.binary (Pixel.record ⟨1, 0, 5⟩)] by decide +kernel] at hns
  rintro i j ⟨⟨p, hp, hpx, -⟩, q, hq, hqx, -⟩
  rw [hps] at hp
  rw [hqs] at hq
  rw [hpx, hcolumn ⟨0, 0, 5⟩ hms hp, hcolumn ⟨1, 0, 5⟩ hns hq] at hqx
  exact absurd hqx (by decide)

end Gathering
end SharedCanvas
