import SharedCanvas.Proofs.Broadcast.Live
import SharedCanvas.Proofs.Broadcast.Orderly
import SharedCanvas.Proofs.Canvas.Payloads
import SharedCanvas.Proofs.Frame.Written
import SharedCanvas.Proofs.Json.Length

namespace SharedCanvas
open Pixel (lastAt)

theorem Frame.decode_encode_self {opcode : Opcode} {payload : Bytes} (hl : payload.length < 2 ^ 63)
    (hc : opcode.isControl = true → payload.length ≤ 125) : decode (encode opcode payload) =
      .ok (.complete ⟨true, opcode.code, false, payload⟩ (encode opcode payload).length) := by
  have hd := decode_encodeWith none hl (fun h => ⟨(rfl : true = true), hc h⟩) []
  rwa [List.append_nil] at hd

theorem Frame.payloadOf_encode {opcode : Opcode} {payload : Bytes} (hl : payload.length < 2 ^ 63)
    (hc : opcode.isControl = false) :
    Frame.payloadOf opcode (Frame.encode opcode payload) = some payload := by
  rw [payloadOf, decode_encode_self hl (by simp [hc])]
  exact if_pos ⟨rfl, rfl, rfl⟩

def Delta.pixelsOf (payload : Bytes) : List Pixel :=
  ((Delta.ofJson payload).toOption.map Delta.pixels).getD []

namespace Canvas

theorem area_lt (c : Canvas) : c.area < 2 ^ 32 := by
  have hw := c.width.toNat_lt
  have hh := c.height.toNat_lt
  calc c.area < 2 ^ 16 * 2 ^ 16 := Nat.mul_lt_mul'' hw hh
    _ = 2 ^ 32 := by decide

theorem length_encode_snapshot_lt (c : Canvas) : c.snapshot.encode.length < 2 ^ 63 := by
  have ha := c.area_lt
  rw [Snapshot.length_encode, c.length_pixels_snapshot, Snapshot.headerLength]
  omega

def Tells (c : Canvas) (payload : Bytes) : Prop :=
  ∃ d : Delta, d.toJson = payload ∧ d.clients ≤ maxWord64 ∧ d.pixels.length ≤ c.area

/-- Cells of the canvas, each once. -/
structure Lists (c : Canvas) (ps : List Pixel) : Prop where
  length : ps.length ≤ c.area
  holds : ∀ p ∈ ps, c.Holds p.x p.y
  once : ps.Pairwise fun p q => ¬ (p.x = q.x ∧ p.y = q.y)

variable {c d : Canvas} {payload : Bytes} {ps : List Pixel}

theorem lists_announcements (c : Canvas) : c.Lists c.announcements := by
  refine ⟨?_, fun p => holds_of_mem_announcements, ?_⟩
  · exact Nat.le_trans (List.length_filterMap_le ..) (Nat.le_of_eq List.length_range)
  · apply c.pairwise_announcements.imp
    rintro p q hlt ⟨hx, hy⟩
    rw [hx, hy] at hlt
    exact Nat.lt_irrefl _ hlt

theorem Tells.of_eq (h : c.Tells payload) (hw : d.width = c.width) (hh : d.height = c.height) :
    d.Tells payload := by
  obtain ⟨delta, hj, hn, hl⟩ := h
  exact ⟨delta, hj, hn, area_eq_of_eq hw hh ▸ hl⟩

theorem Lists.of_eq (h : c.Lists ps) (hw : d.width = c.width) (hh : d.height = c.height) :
    d.Lists ps :=
  ⟨area_eq_of_eq hw hh ▸ h.length, fun p hp => (holds_iff_of_eq hw hh).2 (h.holds p hp), h.once⟩

theorem Tells.ofJson_eq (h : c.Tells payload) :
    ∃ d : Delta, Delta.ofJson payload = .ok d ∧ Delta.pixelsOf payload = d.pixels := by
  obtain ⟨d, rfl, hn, _⟩ := h
  have hd := Delta.ofJson_toJson hn
  refine ⟨d, hd, ?_⟩
  rw [Delta.pixelsOf, hd]
  rfl

theorem Tells.length_lt (h : c.Tells payload) : payload.length < 2 ^ 63 := by
  obtain ⟨d, rfl, hn, hl⟩ := h
  have hj := Delta.length_toJson_le hn
  have ha := c.area_lt
  omega

end Canvas

namespace Snapshot
variable {s : Snapshot} {c : Canvas} {payload : Bytes} {frames : List Bytes}

theorem hear_eq (h : c.Tells payload) :
    s.hear payload = some (s.overlay (Delta.pixelsOf payload)) := by
  obtain ⟨d, hd, hp⟩ := h.ofJson_eq
  rw [hear, hd, hp]
  rfl

theorem hearFrame_eq (h : c.Tells payload) :
    s.hearFrame (Room.textFrame payload) = some (s.overlay (Delta.pixelsOf payload)) := by
  rw [hearFrame, Room.textFrame, Frame.payloadOf_encode h.length_lt rfl]
  exact hear_eq h

theorem hearFrame_pong {ping : Bytes} (h : ping.length ≤ 125) :
    s.hearFrame (Frame.encode .pong ping) = some s := by
  have hd := @Frame.decode_encode_self .pong ping (Nat.lt_of_le_of_lt h (by decide)) fun _ => h
  have ht : Frame.payloadOf .text (Frame.encode .pong ping) = none := by
    rw [Frame.payloadOf, hd]
    exact if_neg fun ht => absurd (show Opcode.pong.code = Opcode.text.code from ht.2.1) (by decide)
  have hp : Frame.payloadOf .pong (Frame.encode .pong ping) = some ping := by
    rw [Frame.payloadOf, hd]
    exact if_pos ⟨rfl, rfl, rfl⟩
  rw [hearFrame, ht, hp]
  rfl

theorem foldlM_hear {payloads : List Bytes} (h : ∀ payload ∈ payloads, c.Tells payload) :
    payloads.foldlM hear s = some (s.overlay (payloads.flatMap Delta.pixelsOf)) := by
  induction payloads generalizing s with
  | nil => rfl
  | cons payload payloads ih =>
    rw [List.foldlM_cons, hear_eq (h payload List.mem_cons_self), List.flatMap_cons, overlay_append]
    exact ih fun p hp => h p (List.mem_cons_of_mem _ hp)

theorem shown_append (hf : shown frames = some s) (more : List Bytes) :
    shown (frames ++ more) = more.foldlM hearFrame s := by
  cases frames with
  | nil => simp [shown] at hf
  | cons first deltas =>
    rw [List.cons_append, shown]
    rw [shown] at hf
    obtain ⟨picture, hp, hd⟩ := Option.bind_eq_some_iff.1 hf
    rw [hp, Option.bind_some, List.foldlM_append, hd]
    rfl

theorem shown_append_delta (hf : shown frames = some s) (h : c.Tells payload) :
    shown (frames ++ [Room.textFrame payload]) = some (s.overlay (Delta.pixelsOf payload)) := by
  rw [shown_append hf, List.foldlM_cons, hearFrame_eq h]
  rfl

theorem shown_append_pongs (hf : shown frames = some s) {pings : List Bytes}
    (h : ∀ ping ∈ pings, ping.length ≤ 125) :
    shown (frames ++ pings.map (Frame.encode .pong)) = some s := by
  rw [shown_append hf]
  induction pings with
  | nil => rfl
  | cons ping pings ih =>
    rw [List.map_cons, List.foldlM_cons, hearFrame_pong (h ping List.mem_cons_self)]
    exact ih fun p hp => h p (List.mem_cons_of_mem _ hp)

theorem shown_picture (c : Canvas) :
    shown [Frame.encode .binary c.snapshot.encode] = some c.snapshot := by
  rw [shown, Frame.payloadOf_encode c.length_encode_snapshot_lt rfl, Option.bind_some,
    decode_encode (fits_snapshot c).length_eq_area]
  rfl

end Snapshot

/-- A client that got these frames shows the canvas in every cell of which the pixels on their way
say nothing. The frames are the last that it was given. -/
structure Follows (c : Canvas) (upcoming : List Pixel) (frames : List Bytes) (given : Bytes) :
    Prop where
  shown : ∃ picture, Snapshot.shown frames = some picture ∧ picture.Fits c ∧
    ∀ x y, c.Holds x y → lastAt x y upcoming = none → picture.get? x y = c.get? x y
  given : frames.flatten <:+ given

namespace Live
variable {s t : Live}

/-- The pixels on their way to the clients, in the order in which they arrive. -/
def upcoming (s : Live) : List Pixel :=
  s.lanes.payloads.flatMap Delta.pixelsOf ++ s.drained.getD [] ++ s.room.canvas.announcements

structure Sound (s : Live) : Prop where
  room : s.room.Orderly
  clients : s.room.maxClients ≤ maxWord64
  lane : ∀ payload ∈ s.lanes.payloads, s.room.canvas.Tells payload
  drained : ∀ ps, s.drained = some ps → s.room.canvas.Lists ps
  newest : ∀ x y color, lastAt x y s.upcoming = some color → s.room.canvas.get? x y = some color
  follows : ∀ c ∈ s.room.connections, c.phase = .active →
    Follows s.room.canvas s.upcoming (s.queued c.id) c.given

theorem lastAt_upcoming (s : Live) (x y : UInt16) : lastAt x y s.upcoming =
    (s.room.canvas.pendingAt x y).or ((lastAt x y (s.drained.getD [])).or
      (lastAt x y (s.lanes.payloads.flatMap Delta.pixelsOf))) := by
  rw [upcoming, Pixel.lastAt_append, Pixel.lastAt_append, Canvas.lastAt_announcements]

/-- A step of the canvas and the lanes is sound if it changes no cell but to a colour that is on its
way. -/
theorem Sound.of_cells (h : s.Sound) (hr : t.room.connections = s.room.connections)
    (hm : t.room.maxClients = s.room.maxClients) (hq : t.queued = s.queued)
    (hw : t.room.canvas.width = s.room.canvas.width)
    (hh : t.room.canvas.height = s.room.canvas.height)
    (hl : ∀ payload ∈ t.lanes.payloads, t.room.canvas.Tells payload)
    (hd : ∀ ps, t.drained = some ps → t.room.canvas.Lists ps)
    (hu : ∀ x y, lastAt x y t.upcoming = lastAt x y s.upcoming ∧
        t.room.canvas.get? x y = s.room.canvas.get? x y ∨
      ∃ color, lastAt x y t.upcoming = some color ∧ t.room.canvas.get? x y = some color) :
    t.Sound := by
  have hroom : t.room.Orderly := h.room.rests (f := id) (by rw [hr, List.map_id]) hm
    fun c _ => .refl c
  refine ⟨hroom, hm ▸ h.clients, hl, hd, ?_, ?_⟩
  · intro x y color hc
    rcases hu x y with ⟨he, hg⟩ | ⟨color', he, hg⟩
    · rw [hg]
      exact h.newest x y color (he ▸ hc)
    · rw [hg, ← he, hc]
  · intro c hc ha
    obtain ⟨⟨picture, hs, hf, hp⟩, hg⟩ := h.follows c (hr ▸ hc) ha
    rw [hq]
    refine ⟨⟨picture, hs, hf.of_eq hw hh, ?_⟩, hg⟩
    -- Nothing on its way speaks of the cell, so neither did it before.
    intro x y hxy hn
    rcases hu x y with ⟨he, hg⟩ | ⟨color, he, _⟩
    · rw [hg]
      exact hp x y ((Canvas.holds_iff_of_eq hw hh).1 hxy) (he ▸ hn)
    · rw [hn] at he
      simp at he

theorem Sound.of_rests (h : s.Sound) {room : Room} (hc : room.canvas = s.room.canvas)
    (hm : room.maxClients = s.room.maxClients) {f : Connection → Connection}
    (hr : room.connections = s.room.connections.map f)
    (hf : ∀ c ∈ s.room.connections, c.Rests (f c)) : (s.setRoom room).Sound := by
  have hu : (s.setRoom room).upcoming = s.upcoming := by
    rw [upcoming, upcoming, setRoom, hc]
  refine ⟨h.room.rests hr hm hf, hm ▸ h.clients, ?_, ?_, ?_, ?_⟩
  · intro payload hp
    exact hc ▸ h.lane payload hp
  · intro ps hp
    exact hc ▸ h.drained ps hp
  · rw [hu]
    exact hc ▸ h.newest
  · intro d hd ha
    change d ∈ room.connections at hd
    rw [hr] at hd
    obtain ⟨c, hcm, rfl⟩ := List.mem_map.1 hd
    obtain ⟨hq, hact⟩ := hf c hcm
    rw [hu, hq.id, (hq.active ha).2, List.append_nil]
    exact hc ▸ h.follows c hcm (hact ha)

theorem Sound.paint (h : s.Sound) (ps : List Pixel) : (s.paint ps).Sound := by
  refine Canvas.paintAll_induction
    (motive := fun c => (s.setRoom { s.room with canvas := c }).Sound) ps h ?_
  intro c d p hc hp
  refine hc.of_cells rfl rfl rfl hp.width hp.height ?_ ?_ ?_
  · intro payload hm
    exact (hc.lane payload hm).of_eq hp.width hp.height
  · intro ps hm
    exact (hc.drained ps hm).of_eq hp.width hp.height
  · intro x y
    rw [lastAt_upcoming, lastAt_upcoming]
    change (d.pendingAt x y).or _ = (c.pendingAt x y).or _ ∧ d.get? x y = c.get? x y ∨
      ∃ color, (d.pendingAt x y).or _ = some color ∧ d.get? x y = some color
    rw [Canvas.pendingAt_set hp.width hp.height hp.holds hp.pending,
      Canvas.get?_set hp.width hp.height hp.holds hp.cells]
    -- What is painted is pending, and so comes after all else that is on its way.
    by_cases hxy : x = p.x ∧ y = p.y
    · right
      rw [if_pos hxy, if_pos hxy]
      exact ⟨p.color, rfl, rfl⟩
    · left
      rw [if_neg hxy, if_neg hxy]
      exact ⟨rfl, rfl⟩

theorem Sound.drain (h : s.Sound) (hn : s.drained = none) : s.drain.Sound := by
  refine h.of_cells rfl rfl rfl rfl rfl h.lane ?_ ?_
  · rintro ps hp
    rw [Live.drain, Option.some.injEq] at hp
    rw [← hp]
    exact s.room.canvas.lists_announcements.of_eq rfl rfl
  · -- The announcements only change hands: they are still behind the lane.
    intro x y
    left
    refine ⟨?_, rfl⟩
    rw [lastAt_upcoming, lastAt_upcoming, hn]
    change (s.room.canvas.drain.1.pendingAt x y).or
      ((lastAt x y s.room.canvas.announcements).or _) = _
    rw [Canvas.pendingAt_drain, Canvas.lastAt_announcements, Option.none_or]
    rfl

theorem Sound.handOff (h : s.Sound) {ps : List Pixel} (hp : s.drained = some ps) :
    (s.handOff ps).Sound := by
  have hps := h.drained ps hp
  rw [Live.handOff]
  rcases s.room.handOff_cases s.lanes ps with ⟨he, hr⟩ | ⟨-, lanes, events, hl, hr⟩ |
    ⟨events, hr⟩
  · -- There is nothing to hand off.
    rw [hr]
    refine h.of_cells rfl rfl rfl rfl rfl h.lane nofun ?_
    intro x y
    left
    rw [lastAt_upcoming, lastAt_upcoming, hp, he]
    exact ⟨rfl, rfl⟩
  · -- The lane takes the delta.
    have hd : (Delta.mk s.room.activeCount ps).clients ≤ maxWord64 :=
      Nat.le_trans s.room.activeCount_le (Nat.le_trans h.room.crowd h.clients)
    have ht : s.room.canvas.Tells (Delta.toJson ⟨s.room.activeCount, ps⟩) :=
      ⟨_, rfl, hd, hps.length⟩
    have hpl := Lanes.payloads_submit_broadcast hl
    have hpx : Delta.pixelsOf (Delta.toJson ⟨s.room.activeCount, ps⟩) = ps := by
      rw [Delta.pixelsOf, Delta.ofJson_toJson hd]
      rfl
    rw [hr]
    refine h.of_cells rfl rfl rfl rfl rfl ?_ nofun ?_
    · intro payload hm
      dsimp only at hm
      rw [hpl, List.mem_append, List.mem_singleton] at hm
      rcases hm with hm | hm
      · exact h.lane payload hm
      · exact hm ▸ ht
    · intro x y
      left
      refine ⟨?_, rfl⟩
      rw [lastAt_upcoming, lastAt_upcoming, hp]
      dsimp only
      rw [hpl, List.flatMap_append, List.flatMap_singleton, Pixel.lastAt_append, hpx]
      rfl
  · -- The lane refuses it, and the canvas takes the pixels back.
    obtain ⟨hw, hh, hc, _⟩ := s.room.canvas.restore_eq ps
    rw [hr]
    refine h.of_cells rfl rfl rfl hw hh ?_ nofun ?_
    · intro payload hm
      exact (h.lane payload hm).of_eq hw hh
    · intro x y
      left
      constructor
      · rw [lastAt_upcoming, lastAt_upcoming, hp]
        dsimp only
        rw [Canvas.pendingAt_restore hps.holds hps.once, Option.or_assoc]
        rfl
      · dsimp only
        rw [Canvas.get?, Canvas.get?, hc, Canvas.index_eq_of_eq hw]
        simp only [Canvas.holds_iff_of_eq hw hh]

theorem Sound.broadcast (h : s.Sound) {payload : Bytes} {lanes : Lanes}
    (hl : s.lanes.take 0 = some (.broadcast payload, lanes)) :
      (s.broadcast payload lanes).Sound := by
  have hp := Lanes.payloads_take_broadcast hl
  have ht : s.room.canvas.Tells payload := h.lane payload (hp ▸ List.mem_cons_self)
  have hu : s.upcoming = Delta.pixelsOf payload ++ (s.broadcast payload lanes).upcoming := by
    rw [upcoming, upcoming, hp, List.flatMap_cons, List.append_assoc, List.append_assoc,
      ← List.append_assoc (lanes.payloads.flatMap Delta.pixelsOf)]
    rfl
  refine ⟨h.room.fanOut _, h.clients, ?_, h.drained, ?_, ?_⟩
  · intro p hm
    exact h.lane p (hp ▸ List.mem_cons_of_mem _ hm)
  · intro x y color hcol
    refine h.newest x y color ?_
    rw [hu, Pixel.lastAt_append, hcol]
    rfl
  · intro d hd ha
    obtain ⟨c, hcm, hact, hq⟩ := h.room.queues_of_fanOut hd ha
    obtain ⟨⟨picture, hs, hfit, hpic⟩, hg⟩ := h.follows c hcm (Room.isActive_iff.1 hact).2
    have hqueue : (s.broadcast payload lanes).queued d.id =
        s.queued c.id ++ [Room.textFrame payload] := by
      rw [hq.id]
      change (if (s.room.connection? c.id).any Room.isActive = true then _ else _) = _
      rw [h.room.connection?_eq hcm, Option.any_some, if_pos hact]
    rw [hqueue]
    refine ⟨⟨_, Snapshot.shown_append_delta hs ht, hfit.overlay _, ?_⟩, ?_⟩
    · intro x y hxy hn
      rw [Snapshot.get?_overlay hfit hxy]
      -- Either the delta says nothing of the cell, or it has the last word on it.
      cases hlast : lastAt x y (Delta.pixelsOf payload) with
      | none =>
        rw [Option.none_or]
        exact hpic x y hxy (by rw [hu, Pixel.lastAt_append, hn, hlast]; rfl)
      | some color =>
        exact (h.newest x y color (by rw [hu, Pixel.lastAt_append, hn, hlast]; rfl)).symm
    · rw [List.flatten_append, List.flatten_singleton, (hq.active ha).2]
      obtain ⟨before, hb⟩ := hg
      exact ⟨before, by rw [← hb, List.append_assoc]⟩

/-- The picture is sent and the connection made eligible in one step, so nothing is missed between
the two. -/
theorem Sound.welcome (h : s.Sound) {id : Nat} {c : Connection} (hm : s.room.member? id = some c) :
    (s.welcome c).Sound := by
  obtain ⟨hcm, -, hcl⟩ := Room.mem_of_member? hm
  have hq := Connection.queues_sendPicture s.room.canvas hcl
  rw [Live.welcome]
  dsimp only at hq ⊢
  generalize hd : (Room.settle ((Visit.mk s.room.canvas c #[]).sendPicture).1.conn
    (((Visit.mk s.room.canvas c #[]).sendPicture).2.map .fail)).1 = d
  rw [hd] at hq
  have hf : ∀ b ∈ s.room.connections, (if b.id = d.id then d else b).id = b.id ∧
      ((if b.id = d.id then d else b).listed = true → b.listed = true) ∧
        ((if b.id = d.id then d else b).phase = .active →
          (if b.id = d.id then d else b).listed = true) := by
    refine h.room.put_cases (motive := fun b b' => b'.id = b.id ∧
      (b'.listed = true → b.listed = true) ∧ (b'.phase = .active → b'.listed = true)) hcm
        hq.id ?_ ?_
    · exact ⟨hq.id, hq.listed, fun ha => (hq.active ha).1.trans hcl⟩
    · exact fun b hb _ => ⟨rfl, fun hl => hl, h.room.listed b hb⟩
  refine ⟨h.room.of_map (s.room.put_eq_map d) rfl hf, h.clients, h.lane, h.drained, h.newest, ?_⟩
  intro b hb ha
  change b ∈ s.room.connections.map _ at hb
  obtain ⟨b, hbm, rfl⟩ := List.mem_map.1 hb
  refine h.room.put_cases (motive := fun b b' => b'.phase = .active →
    Follows s.room.canvas s.upcoming (if b'.id = c.id then [s.picture] else s.queued b'.id)
      b'.given)
    hcm hq.id ?_ ?_ b hbm ha
  · -- Deltas that are older than the picture may follow it. They do it no harm, as the last of
    -- them for a cell has the canvas's colour.
    intro ha
    rw [if_pos hq.id, (hq.active ha).2]
    refine ⟨⟨_, Snapshot.shown_picture _, Snapshot.fits_snapshot _, ?_⟩, ?_⟩
    · exact fun x y _ _ => Snapshot.get?_snapshot _ x y
    · rw [List.flatten_singleton]
      exact List.suffix_append _ _
  · intro b hb hne ha
    rw [if_neg hne]
    exact h.follows b hb ha

/-- Behind the pongs the picture is what it was. -/
theorem Sound.answer (h : s.Sound) {c d : Connection} {pings : List Bytes}
    (hc : c ∈ s.room.connections) (hp : ∀ ping ∈ pings, ping.length ≤ 125)
    (hd : c.Queues (pings.flatMap (Frame.encode .pong)) d)
    (ha : d.phase = .active → c.phase = .active) : (s.answer d pings).Sound := by
  have hf := h.room.put_cases (motive := fun b b' => b'.id = b.id ∧
    (b'.listed = true → b.listed = true) ∧ (b'.phase = .active → b'.listed = true)) hc hd.id
    ⟨hd.id, hd.listed, fun hx => (hd.active hx).1.trans (h.room.listed c hc (ha hx))⟩
    fun b hb _ => ⟨rfl, fun hl => hl, h.room.listed b hb⟩
  refine ⟨h.room.of_map (s.room.put_eq_map d) rfl hf, h.clients, h.lane, h.drained, h.newest, ?_⟩
  intro b hb hx
  change b ∈ s.room.connections.map _ at hb
  obtain ⟨b, hbm, rfl⟩ := List.mem_map.1 hb
  refine h.room.put_cases (motive := fun b b' => b'.phase = .active →
    Follows s.room.canvas s.upcoming
    (if b'.id = d.id then s.queued b'.id ++ pings.map (Frame.encode .pong) else s.queued b'.id)
    b'.given) hc hd.id ?_ ?_ b hbm hx
  · intro hx
    obtain ⟨⟨picture, hs, hrest⟩, hg⟩ := h.follows c hc (ha hx)
    rw [if_pos rfl, hd.id, (hd.active hx).2]
    refine ⟨⟨picture, Snapshot.shown_append_pongs hs hp, hrest⟩, ?_⟩
    obtain ⟨before, hb⟩ := hg
    exact ⟨before, by rw [← hb, List.flatten_append, List.flatMap, List.append_assoc]⟩
  · intro b hb hne hx
    rw [if_neg (hd.id ▸ hne)]
    exact h.follows b hb hx

theorem Sound.accept (h : s.Sound) {id : Nat} (hi : s.room.connection? id = none) (peer : String)
    (socket : Socket) : (s.setRoom (s.room.accept id peer socket).1).Sound := by
  have hroom := h.room.accept hi peer socket
  rcases s.room.accept_cases id peer socket with he | ⟨-, d, hd, he⟩
  · rw [he]
    exact h
  · rw [he] at hroom ⊢
    refine ⟨hroom, h.clients, h.lane, h.drained, h.newest, ?_⟩
    intro c hc ha
    rcases List.mem_append.1 hc with hc | hc
    · exact h.follows c hc ha
    · rw [List.mem_singleton.1 hc] at ha
      exact absurd ha hd.not_active

theorem Sound.teardown (h : s.Sound) (id : Nat) (reason : Reason) :
    (s.setRoom (s.room.teardown id reason).1).Sound := by
  unfold Room.teardown Room.modify
  split
  · exact h
  · rename_i c hm
    obtain ⟨hcm, -, -⟩ := Room.mem_of_member? hm
    have hr := c.rests_teardown reason
    exact h.of_rests rfl rfl (s.room.put_eq_map _)
      (h.room.put_cases hcm hr.1.id hr fun b _ _ => .refl b)

theorem Sound.writable (h : s.Sound) : (s.setRoom s.room.writableAll.1).Sound := by
  refine h.of_rests rfl rfl (f := fun c => (if Room.hasEdge c then c.writable else (c, [])).1) ?_ ?_
  · exact List.map_map ..
  · intro c _
    split
    · rename_i he
      simp only [Room.hasEdge, Bool.and_eq_true] at he
      exact Connection.rests_writable he.1.1.1
    · exact .refl c

theorem Sound.stand (h : s.Sound) (id : Nat) (standing : Standing) :
    (s.setRoom (s.room.stand id standing)).Sound := by
  unfold Room.stand
  split
  · exact h
  · rename_i c hc
    obtain ⟨hcm, -⟩ := Room.mem_of_connection? hc
    have hr : c.Rests { c with socket := { c.socket with standing } } :=
      ⟨⟨rfl, fun h => h, fun _ => ⟨rfl, (List.append_nil _).symm⟩⟩, fun h => h⟩
    exact h.of_rests rfl rfl (s.room.put_eq_map _)
      (h.room.put_cases hcm hr.1.id hr fun b _ _ => .refl b)

theorem Sound.setLanes (h : s.Sound) {lanes : Lanes} (hl : lanes.payloads = s.lanes.payloads) :
    (s.setLanes lanes).Sound := by
  refine h.of_cells rfl rfl rfl rfl rfl ?_ h.drained ?_
  · intro payload hm
    exact h.lane payload (hl ▸ hm)
  · intro x y
    left
    refine ⟨?_, rfl⟩
    rw [lastAt_upcoming, lastAt_upcoming, ← hl]
    rfl

theorem sound_of_step (h : s.Sound) (hs : Step s t) : t.Sound := by
  cases hs with
  | paint ps => exact h.paint ps
  | drain hn => exact h.drain hn
  | handOff ps hp => exact h.handOff hp
  | welcome id c hm => exact h.welcome hm
  | broadcast payload lanes hl => exact h.broadcast hl
  | answer c d pings hc hp hd ha => exact h.answer hc hp hd ha
  | accept id peer socket hi => exact h.accept hi peer socket
  | teardown id reason => exact h.teardown id reason
  | writable => exact h.writable
  | stand id standing => exact h.stand id standing
  | submit task id lanes ht hl => exact h.setLanes (Lanes.payloads_submit ht hl)
  | take lane task id lanes ht hl => exact h.setLanes (Lanes.payloads_take ht hl)
  | close => exact h.setLanes s.lanes.payloads_close
  | refile files =>
    exact h.of_cells rfl rfl rfl rfl rfl h.lane h.drained fun x y => .inl ⟨rfl, rfl⟩

theorem sound_start {service : Service} (h : Fresh service) : (start service).Sound := by
  have hn : ∀ c, c ∉ (start service).room.connections := by
    intro c hc
    change c ∈ service.room.connections at hc
    rw [h.connections] at hc
    exact List.not_mem_nil hc
  have hu : (start service).upcoming = [] := by
    rw [upcoming]
    change service.lanes.payloads.flatMap _ ++ [] ++ service.room.canvas.announcements = []
    rw [h.lanes, h.canvas]
    rfl
  refine ⟨⟨?_, fun c hc => absurd hc (hn c), ?_⟩, h.maxClients, ?_, nofun, ?_,
    fun c hc => absurd hc (hn c)⟩
  · change (service.room.connections.map _).Nodup
    rw [h.connections]
    exact List.nodup_nil
  · change service.room.memberCount ≤ _
    rw [Room.memberCount, Room.members, h.connections]
    exact Nat.zero_le _
  · intro payload hp
    change payload ∈ service.lanes.payloads at hp
    rw [h.lanes] at hp
    exact absurd hp List.not_mem_nil
  · intro x y color hc
    rw [hu] at hc
    simp [lastAt] at hc

theorem sound_of_reachable (h : Reachable s) : s.Sound := by
  induction h with
  | start hf => exact sound_start hf
  | step _ hs ih => exact sound_of_step ih hs

theorem member?_welcome {s : Live} {c : Connection} {id : Nat} (hm : s.room.member? id = some c)
    (hs : c.socket.IsReady) (ho : c.outbox.frames = []) (hp : c.phase = .handshaking)
    (hl : s.picture.length ≤ c.outbox.limit) : (s.welcome c).room.member? id =
      some { c with
        phase := .active
        socket := { c.socket with received := c.socket.received ++ s.picture } } := by
  have hn : s.picture ≠ [] := nofun
  have hsend := Connection.send_of_isReady hs ho (by rw [hp]; rfl) hn hl
  obtain ⟨hc, hcl⟩ := Option.filter_eq_some_iff.1 hm
  have hd : (Room.settle ((Visit.mk s.room.canvas c #[]).sendPicture).1.conn
      (((Visit.mk s.room.canvas c #[]).sendPicture).2.map .fail)).1 = { c with
        phase := .active
        socket := { c.socket with received := c.socket.received ++ s.picture } } := by
    rw [picture] at hsend ⊢
    simp [Visit.sendPicture, Visit.send, hsend, Room.settle, Connection.advance, hp, Phase.rank]
  have hw : (s.welcome c).room.connection? id = _ :=
    Room.connection?_put hc (by rw [hd]; exact (Room.mem_of_connection? hc).2)
  rw [Room.member?, hw, hd]
  exact if_pos hcl

/-- In every reachable state the picture of everyone who is active, with all that is still on its
way to it, is the canvas. What a client was queued is the last of what it was given, and once
nothing is on its way, its picture is the canvas. -/
theorem pictures_converge (h : Reachable s) {c : Connection} (hc : c ∈ s.room.connections)
    (ha : c.phase = .active) :
    s.view c.id = some s.room.canvas.snapshot ∧ (s.queued c.id).flatten <:+ c.given ∧
      (s.lanes.payloads = [] → s.drained.getD [] = [] → s.room.canvas.announcements = [] →
        Snapshot.shown (s.queued c.id) = some s.room.canvas.snapshot) := by
  have hsound := sound_of_reachable h
  obtain ⟨⟨picture, hs, hf, hp⟩, hg⟩ := hsound.follows c hc ha
  have hview : s.view c.id = some (picture.overlay s.upcoming) := by
    rw [view, hs, Option.bind_some, Snapshot.foldlM_hear hsound.lane, Option.map_some, upcoming,
      Snapshot.overlay_append, Snapshot.overlay_append]
  have heq : picture.overlay s.upcoming = s.room.canvas.snapshot := by
    refine (hf.overlay _).ext (Snapshot.fits_snapshot _) ?_
    intro x y hxy
    rw [Snapshot.get?_overlay hf hxy, Snapshot.get?_snapshot]
    cases hu : lastAt x y s.upcoming with
    | none => exact hp x y hxy hu
    | some color => exact (hsound.newest x y color hu).symm
  refine ⟨by rw [hview, heq], hg, ?_⟩
  intro hl hd hn
  have hu : s.upcoming = [] := by
    rw [upcoming, hl, hd, hn]
    rfl
  rw [hu] at heq
  rw [hs, ← heq]
  rfl

theorem pictures_converge_one_client : ∃ s : Live, Reachable s ∧ ∃ c ∈ s.room.connections,
    c.phase = .active ∧ s.room.canvas.announcements ≠ [] ∧
      s.view c.id = some s.room.canvas.snapshot := by
  obtain ⟨canvas, hc, ha, hn⟩ : ∃ c, Canvas.blank 2 1 Palette.white = .ok c ∧ c.area = 2 ∧
      (c.paintAll [⟨1, 0, 5⟩]).1.announcements ≠ [] := ⟨_, rfl, rfl, by decide⟩
  have hf : Fresh ⟨.new canvas 1 1024 4096 none, .start 1 1⟩ :=
    ⟨rfl, Lanes.payloads_start 1 1, Canvas.announcements_of_blank hc, show 1 ≤ maxWord64 by decide⟩
  -- A client joins. Then it is sent the picture, and after that a pixel is painted.
  obtain ⟨s, hs, hroom, hcanvas⟩ : ∃ s, Reachable s ∧ s.room.connections =
      [{ Connection.new 1 "peer" .fresh 1024 4096 with listed := true }] ∧
        s.room.canvas = canvas :=
    ⟨_, (Reachable.start hf).step (.accept _ 1 "peer" .fresh rfl), rfl, rfl⟩
  have hm : s.room.member? 1 = s.room.connections.head? := by
    rw [Room.member?, Room.connection?, hroom]
    rfl
  have hl : s.picture.length ≤ 4096 := by
    rw [picture, hcanvas, Frame.encode, Frame.length_encodeWith, Snapshot.length_encode,
      Canvas.length_pixels_snapshot, ha]
    decide
  rw [hroom, List.head?_cons] at hm
  have hd := member?_welcome hm ⟨rfl, rfl, rfl⟩ rfl rfl hl
  have hr := (hs.step (.welcome s 1 _ hm)).step (.paint _ [⟨1, 0, 5⟩])
  have hr' : (s.room.canvas.paintAll [⟨1, 0, 5⟩]).1.announcements ≠ [] := hcanvas ▸ hn
  have hdm := (Room.mem_of_member? hd).1
  exact ⟨_, hr, _, hdm, rfl, hr', (pictures_converge hr hdm rfl).1⟩

end Live
end SharedCanvas
