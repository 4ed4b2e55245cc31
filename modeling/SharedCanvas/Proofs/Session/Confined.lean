import SharedCanvas.Proofs.Session.Lifecycle
import SharedCanvas.Proofs.Session.Obeyed

namespace SharedCanvas

namespace Room

variable {r : Room} {c d : Connection} {id : Nat}

theorem Orderly.put_self (h : r.Orderly) (hc : c ∈ r.connections) : r.put c = r := by
  have hm : (r.connections.map fun b => if b.id = c.id then c else b) = r.connections := by
    refine (List.map_congr_left ?_).trans (List.map_id' _)
    intro b hb
    split
    · rename_i hi
      exact (h.eq_of_id hb hc hi).symm
    · rfl
  rw [put, hm]

theorem hangUp_of_member (hm : r.member? id = some c) : (r.hangUp id).1 = r.put c.release := by
  obtain ⟨-, -, hl⟩ := mem_of_member? hm
  rw [hangUp, modify, hm]
  dsimp only
  rw [Connection.teardown_of_listed hl]

theorem receive_eq_visited (hm : r.member? id = some c) (bytes : Bytes) :
    (r.receive id bytes).1 =
      { r.put (c.visited r.canvas r.site bytes).1 with
        canvas := ((Visit.mk r.canvas c #[]).receive r.site bytes).1.canvas } := by
  rw [receive_of_member hm]
  rfl

end Room

namespace Connection

variable {c : Connection}

theorem visited_of_fail (hl : c.listed = true) {canvas : Canvas} {site : Option Site}
    {bytes : Bytes} {e : SessionError}
    (h : ((Visit.mk canvas c #[]).receive site bytes).2 = some (.fail e)) :
    (c.visited canvas site bytes).1.phase = .closed ∧
      (c.visited canvas site bytes).1.listed = false := by
  have hlist := ((preserves_member c.id c.listed).receive (v := ⟨canvas, c, #[]⟩) ⟨rfl, rfl⟩ site
    bytes).2.trans hl
  rw [visited]
  rcases hv : (Visit.mk canvas c #[]).receive site bytes with ⟨v, halt⟩
  rw [hv] at h hlist
  subst h
  dsimp only
  rw [Room.settle_fail hlist, release_eq]
  exact ⟨rfl, rfl⟩

/-- The connection is active and waits for the start of a frame. -/
structure Listens (limit : Nat) (c : Connection) : Prop where
  listed : c.listed = true
  phase : c.phase = .active
  inbox : c.inbox = .new limit

variable {limit : Nat} {payload frame : Bytes}

/-- A message that comes whole is painted, and the connection listens on. -/
theorem Listens.receive_binary (h : c.Listens limit) (canvas : Canvas) (site : Option Site)
    (hd : Frame.decode frame =
      .ok (.complete ⟨true, Opcode.binary.code, true, payload⟩ frame.length))
    (hl : payload.length ≤ limit) (hc : frame.length ≤ limit) :
    ∃ events, (Visit.mk canvas c #[]).receive site frame =
      (⟨(canvas.paintAll (Pixel.ofRecords payload)).1, c, events⟩, none) := by
  obtain ⟨id, peer, phase, inbox, outbox, socket, listed⟩ := c
  obtain ⟨rfl, rfl, rfl⟩ := h
  let c : Connection := ⟨id, peer, .active, ⟨frame, limit, .new limit, false⟩, outbox, socket, true⟩
  have hrec : (Visit.mk canvas ⟨id, peer, .active, .new limit, outbox, socket, true⟩ #[]).receive
      site frame = (Visit.mk canvas c #[]).takeFrames := by
    rcases Visit.receive_cases ⟨canvas, ⟨id, peer, .active, .new limit, outbox, socket, true⟩, #[]⟩
      site rfl frame with ⟨hlt, -⟩ | hrec
    · have hlt : limit < 0 + frame.length := hlt
      omega
    · exact hrec
  have hp : (Assembler.new limit).push ⟨true, Opcode.binary.code, true, payload⟩ =
      .ok (.new limit, some (.binary payload)) := if_neg (Nat.not_lt_of_le hl)
  obtain ⟨events, ha⟩ :=
    Visit.acts_apply c (Pixel.ofRecords payload) (none : Option Halt) canvas #[]
  have hs : (Visit.mk canvas c #[]).takeFrame ⟨true, Opcode.binary.code, true, payload⟩ =
      (⟨(canvas.paintAll (Pixel.ofRecords payload)).1, c, events⟩, none) :=
    (Visit.takeFrame_of_message (v := ⟨canvas, c, #[]⟩) hp).trans ha
  have hpump : Frame.pump Visit.takeFrame ⟨canvas, c, #[]⟩ frame =
      (⟨(canvas.paintAll (Pixel.ofRecords payload)).1, c, events⟩, [], .starved 2) := by
    rw [Frame.pump_of_step hd hs, List.drop_length]
    exact Frame.pump_of_incomplete rfl
  refine ⟨events, hrec.trans ?_⟩
  rw [Visit.takeFrames]
  dsimp only [c] at hpump ⊢
  rw [hpump]
  rfl

end Connection

namespace Room

variable {r : Room} {id limit : Nat} {c : Connection} {payload frame request : Bytes}

theorem member?_put {d : Connection} (hc : r.connection? id = some c) (hd : d.id = id)
    (hl : d.listed = true) : (r.put d).member? id = some d := by
  rw [member?, connection?_put hc hd, Option.filter_some, if_pos hl]

theorem receive_of_listens (hm : r.member? id = some c) (h : c.Listens limit)
    (hd : Frame.decode frame =
      .ok (.complete ⟨true, Opcode.binary.code, true, payload⟩ frame.length))
    (hl : payload.length ≤ limit) (hc : frame.length ≤ limit) :
    (r.receive id frame).1.member? id = some c ∧
      (r.receive id frame).1.canvas = (r.canvas.paintAll (Pixel.ofRecords payload)).1 := by
  obtain ⟨events, hv⟩ := h.receive_binary r.canvas r.site hd hl hc
  obtain ⟨hcon, hlist⟩ := Option.filter_eq_some_iff.1 hm
  rw [receive_of_member hm, hv]
  exact ⟨member?_put hcon (mem_of_connection? hcon).2 hlist, rfl⟩

theorem exists_listens (hm : r.member? id = some c) (hi : c.IsIdle) (hp : c.phase = .handshaking)
    (hin : c.inbox = .new limit) (hr : Handshake.IsUpgrade request) (hc : request.length ≤ limit)
    (hl : 129 ≤ c.outbox.limit)
    (hl' : (Frame.encode .binary r.canvas.snapshot.encode).length ≤ c.outbox.limit) :
    (r.receive id request).1.canvas = r.canvas ∧
      ∃ d, (r.receive id request).1.member? id = some d ∧ d.Listens limit := by
  obtain ⟨hcon, hlist⟩ := Option.filter_eq_some_iff.1 hm
  have hid := (mem_of_connection? hcon).2
  have hcap : request.length ≤ c.inbox.capacity := by
    rw [hin]
    exact hc
  have hs : c.inbox.staged = [] := by rw [hin]; rfl
  obtain ⟨hph, hvid⟩ := hi.visited_of_isUpgrade r.canvas r.site hp hs hr hcap hl hl'
  have hinbox := hi.inbox_visited_of_isUpgrade r.canvas r.site hp hs hr hcap hl hl'
  obtain ⟨-, hlisted⟩ := Connection.visited_spec r.canvas r.site hlist request
  rw [receive_eq_visited hm]
  constructor
  · obtain ⟨ms, hcv, hpre, -⟩ := (Visit.mk r.canvas c #[]).obeys_receive r.site request
    obtain ⟨response, hv⟩ := hr
    have hnone : c.finishes request = [] := by
      rw [Connection.finishes, hp]
      dsimp only
      rw [hs, List.nil_append, hv]
      dsimp only
      rw [List.drop_length]
      exact Session.messages_of_incomplete (n := 2) rfl
    rw [hnone, List.prefix_nil] at hpre
    rw [hcv, hpre]
    rfl
  · have hdl : (c.visited r.canvas r.site request).1.listed = true :=
      hlisted.resolve_left (by rw [hph]; decide)
    refine ⟨_, member?_put hcon (hvid.trans hid) hdl, hdl, hph, ?_⟩
    rw [hinbox, hin]
    rfl

end Room

namespace Gathering

variable {s : Gathering}

/-- Bytes from a connection, or the news that it is gone, reach no other one, however that ends. The
canvas is painted with messages that the bytes finish, all of them unless the connection is closed
for an error. Whoever is not listed is past changing, and whoever is closing takes nothing in, but
can still go. -/
theorem tasks_are_confined (h : Reachable s) (id : Nat) (bytes : Bytes) :
    let r := s.room
    let t := (r.perform (.data id bytes)).1
    let u := (r.perform (.hangUp id)).1
    (∀ i ≠ id, t.connection? i = r.connection? i ∧ u.connection? i = r.connection? i) ∧
    t = { r with canvas := t.canvas, connections := t.connections } ∧
    t.connections.map Connection.id = r.connections.map Connection.id ∧
    u = { r with connections := u.connections } ∧
    u.connections.map Connection.id = r.connections.map Connection.id ∧
    (r.member? id = none → t = r ∧ u = r) ∧
    ∀ c, r.member? id = some c →
      (∃ ms, ms <+: c.finishes bytes ∧
        t.canvas = (r.canvas.paintAll (r.canvas.accepted (ms.flatMap Message.pixels))).1 ∧
        (ms = c.finishes bytes ∨
          ∃ d, t.connection? id = some d ∧ d.phase = .closed ∧ d.listed = false)) ∧
      u.connection? id = some c.release ∧
      (c.phase = .closing → t = r) := by
  intro r t u
  obtain ⟨ho, -⟩ := h.lives
  rcases hm : r.member? id with _ | c
  · have ht : t = r := by
      change (r.receive id bytes).1 = r
      rw [Room.receive, hm]
    have hu : u = r := by
      change (r.hangUp id).1 = r
      rw [Room.hangUp, Room.modify, hm]
    rw [ht, hu]
    exact ⟨fun _ _ => ⟨rfl, rfl⟩, rfl, rfl, rfl, rfl, fun _ => ⟨rfl, rfl⟩,
      fun _ hn => absurd hn (by simp)⟩
  · obtain ⟨hc, rfl, hl⟩ := Room.mem_of_member? hm
    have hcon : r.connection? c.id = some c := ho.connection?_eq hc
    obtain ⟨hid, -⟩ := Connection.visited_spec r.canvas r.site hl bytes
    have ht : t = _ := Room.receive_eq_visited hm bytes
    have hu : u = r.put c.release := Room.hangUp_of_member hm
    have htc : t.connection? c.id = some (c.visited r.canvas r.site bytes).1 := by
      rw [ht]
      exact Room.connection?_put hcon hid
    refine ⟨fun i hi => ⟨?_, ?_⟩, ?_, ?_, ?_, ?_, fun hn => absurd hn (by simp), ?_⟩
    · rw [ht]
      exact Room.connection?_put_of_ne (hid.symm ▸ hi)
    · rw [hu]
      exact Room.connection?_put_of_ne (c.id_release.symm ▸ hi)
    · rw [ht]
      rfl
    · rw [ht]
      exact r.ids_put _
    · rw [hu]
      rfl
    · rw [hu]
      exact r.ids_put _
    · intro d hd
      obtain rfl := Option.some.inj hd
      refine ⟨?_, ?_, ?_⟩
      · obtain ⟨ms, hcv, hpre, hall⟩ := (Visit.mk r.canvas c #[]).obeys_receive r.site bytes
        refine ⟨ms, hpre, ?_, hall.imp_right ?_⟩
        · rw [ht, Canvas.paintAll_accepted]
          exact hcv
        · rintro ⟨e, he⟩
          exact ⟨_, htc, Connection.visited_of_fail hl he⟩
      · rw [hu]
        exact Room.connection?_put hcon c.id_release
      · intro hp
        have hlv : c.phase.isLeaving = true := by rw [hp]; rfl
        have hv : (Visit.mk r.canvas c #[]).receive r.site bytes = (⟨r.canvas, c, #[]⟩, none) := by
          rw [Visit.receive, if_pos hlv]
        rw [ht, Connection.visited_of_isLeaving hlv, hv, ho.put_self hc]

/-- One of two clients sends more than its receive buffer holds. -/
theorem tasks_are_confined_overflow : ∃ s, Reachable s ∧
    let t := (s.room.perform (.data 1 [0, 0, 0, 0, 0])).1
    (t.connection? 1).map Connection.phase = some .closed ∧
      (t.connection? 2).map Connection.phase = some .handshaking ∧
        t.connection? 2 = s.room.connection? 2 := by
  let canvas : Canvas := ⟨2, 1, .replicate 2 Palette.white, .replicate 2 none, 0, rfl, rfl,
    fun _ hc => (Array.mem_replicate.1 hc).2 ▸ Palette.has_white, by decide⟩
  have hs := ((Run.refl (start (.new canvas 2 4 64 none))).step
    (.connect _ 1 "a" .fresh rfl rfl)).step (.connect _ 2 "b" .fresh rfl rfl)
  have hr : Reachable _ := ⟨_, rfl, hs⟩
  exact ⟨_, hr, rfl, rfl, ((tasks_are_confined hr 1 [0, 0, 0, 0, 0]).1 2 (by decide)).1⟩

end Gathering
end SharedCanvas
