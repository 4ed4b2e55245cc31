import SharedCanvas.Proofs.Broadcast.Orderly
import Mathlib.Data.List.Permutation

namespace SharedCanvas

def FanOut.add (f : FanOut) (delivered : Bool) : FanOut :=
  if delivered then { f with delivered := f.delivered + 1 } else { f with dropped := f.dropped + 1 }

namespace Connection

variable {c : Connection} {frame : Bytes}

/-- The frame was queued behind all that the connection had been given, and it stays active. -/
structure Reached (c : Connection) (frame : Bytes) (d : Connection) : Prop where
  send : c.send frame = (d, none)
  active : Room.isActive d = true
  given : d.given = c.given ++ frame

/-- The send failed, and the connection is out of the registry and closed. -/
structure Lost (c : Connection) (frame : Bytes) (d : Connection) : Prop where
  send : ∃ e, (c.send frame).2 = some e
  release : d = (c.send frame).1.release
  listed : d.listed = false
  phase : d.phase = .closed
  shut : d.socket.shut = true

theorem delivered_post (c : Connection) (frame : Bytes) :
    (c.post frame).2.1 = (c.send frame).2.isNone := by
  unfold post
  rcases c.send frame with ⟨d, _ | e⟩ <;> rfl

theorem post_of_none (h : (c.send frame).2 = none) : (c.post frame).1 = (c.send frame).1 := by
  unfold post
  rcases hs : c.send frame with ⟨d, _ | e⟩
  · rfl
  · rw [hs] at h
    cases h

theorem post_of_some (hl : c.listed = true) {e : SessionError} (h : (c.send frame).2 = some e) :
    (c.post frame).1 = (c.send frame).1.release := by
  have hd : (c.send frame).1.listed = true := (c.send_keeps frame).2.1.trans hl
  unfold post
  rcases hs : c.send frame with ⟨d, _ | e⟩
  · rw [hs] at h
    cases h
  · rw [hs] at hd
    dsimp only
    rw [drop_of_listed hd]

theorem reached_post (ha : Room.isActive c = true) (h : (c.send frame).2 = none) :
    c.Reached frame (c.post frame).1 := by
  obtain ⟨hl, hp⟩ := Room.isActive_iff.1 ha
  obtain ⟨-, hsl, hsp, -, -⟩ := c.send_keeps frame
  have hs : c.send frame = ((c.send frame).1, none) := Prod.ext rfl h
  rw [post_of_none h]
  exact ⟨hs, Room.isActive_iff.2 ⟨hsl.trans hl, hsp.trans hp⟩, given_send hs (by rw [hp]; rfl)⟩

theorem lost_post (ha : Room.isActive c = true) {e : SessionError}
    (h : (c.send frame).2 = some e) : c.Lost frame (c.post frame).1 := by
  rw [post_of_some (Room.isActive_iff.1 ha).1 h]
  exact ⟨⟨e, h⟩, rfl, rfl, phase_release _, rfl⟩

end Connection

namespace Room

def sendTo (frame : Bytes) (s : Room × FanOut × List Event) (id : Nat) :
    Room × FanOut × List Event :=
  let (r, report, events) := s
  match r.connection? id with
  | none => s
  | some c =>
    let (c, delivered, more) := c.post frame
    (r.put c, report.add delivered, events ++ more)

/-- Queues the frame for one active member after another, in the order in which the members are
given. They are looked up by their ids, since the room changes meanwhile. -/
def fanOutIn (r : Room) (frame : Bytes) (members : List Connection) : Room × FanOut × List Event :=
  ((members.filter isActive).map Connection.id).foldl (sendTo frame) (r, ⟨0, 0⟩, [])

variable {r : Room} {c : Connection} {cs members : List Connection}

theorem sendTo_eq (hr : (r.connections.map Connection.id).Nodup) (hc : c ∈ r.connections)
    (frame : Bytes) (report : FanOut) (events : List Event) :
    sendTo frame (r, report, events) c.id =
      (r.put (c.post frame).1, report.add (c.post frame).2.1, events ++ (c.post frame).2.2) := by
  rw [sendTo]
  dsimp only
  rw [connection?_eq hr hc]

theorem foldl_sendTo (frame : Bytes) (hcs : (cs.map Connection.id).Nodup) :
    ∀ (r : Room) (report : FanOut) (events : List Event),
      (r.connections.map Connection.id).Nodup → (∀ c ∈ cs, c ∈ r.connections) →
      (cs.map Connection.id).foldl (sendTo frame) (r, report, events) =
        ({ r with connections := r.connections.map fun c =>
            if c.id ∈ cs.map Connection.id then (c.post frame).1 else c },
          ⟨report.delivered + cs.countP fun c => (c.post frame).2.1,
            report.dropped + cs.countP fun c => !(c.post frame).2.1⟩,
          events ++ cs.flatMap fun c => (c.post frame).2.2) := by
  induction cs with
  | nil =>
    intro r report events _ _
    simp
  | cons c cs ih =>
    intro r report events hr hm
    rw [List.map_cons, List.nodup_cons] at hcs
    obtain ⟨hcr, hm⟩ := List.forall_mem_cons.1 hm
    let d := (c.post frame).1
    have hd : d.id = c.id := c.id_post frame
    -- The others are where they were.
    have hput : (r.put d).connections.map Connection.id = r.connections.map Connection.id :=
      r.ids_put d
    have hmem : ∀ b ∈ cs, b ∈ (r.put d).connections := by
      intro b hb
      have hne : b.id ≠ d.id := by
        rw [hd]
        intro he
        exact hcs.1 (he ▸ List.mem_map_of_mem hb)
      exact List.mem_map.2 ⟨b, hm b hb, if_neg hne⟩
    have hmap : (r.put d).connections.map (fun b =>
        if b.id ∈ cs.map Connection.id then (b.post frame).1 else b) =
        r.connections.map fun b =>
          if b.id ∈ (c :: cs).map Connection.id then (b.post frame).1 else b := by
      rw [put_eq_map, List.map_map]
      apply List.map_congr_left
      intro b hb
      rw [Function.comp]
      by_cases hbc : b.id = c.id
      · have hbm : b.id ∈ (c :: cs).map Connection.id := hbc ▸ List.mem_cons_self
        rw [if_pos hbm, if_pos (hbc.trans hd.symm), if_neg (hd.symm ▸ hcs.1),
          eq_of_id hr hb hcr hbc]
      · have hbm : b.id ∈ cs.map Connection.id ↔ b.id ∈ (c :: cs).map Connection.id := by
          rw [List.map_cons, List.mem_cons, or_iff_right hbc]
        have hbd : ¬b.id = d.id := hd.symm ▸ hbc
        simp only [if_neg hbd, hbm]
    rw [List.map_cons, List.foldl_cons, sendTo_eq hr hcr, ih hcs.2 _ _ _ (hput ▸ hr) hmem, hmap,
      List.flatMap_cons, List.append_assoc, List.countP_cons, List.countP_cons]
    cases (c.post frame).2.1 <;> simp [FanOut.add, put, Nat.add_assoc, Nat.add_comm]

theorem filter_isActive_perm (h : members.Perm r.members) :
    (members.filter isActive).Perm (r.connections.filter isActive) := by
  have hf : r.members.filter isActive = r.connections.filter isActive := by
    rw [Room.members, List.filter_filter]
    apply List.filter_congr
    intro c _
    rw [isActive, Bool.and_right_comm, Bool.and_self]
  exact hf ▸ h.filter isActive

theorem mem_map_id_iff (hr : (r.connections.map Connection.id).Nodup)
    (hp : cs.Perm (r.connections.filter isActive)) (hc : c ∈ r.connections) :
    c.id ∈ cs.map Connection.id ↔ isActive c = true := by
  rw [List.mem_map]
  constructor
  · rintro ⟨b, hb, hi⟩
    obtain ⟨hbm, ha⟩ := List.mem_filter.1 (hp.subset hb)
    rwa [← eq_of_id hr hbm hc hi]
  · intro ha
    exact ⟨c, hp.symm.subset (List.mem_filter.2 ⟨hc, ha⟩), rfl⟩

theorem report_fanOut (r : Room) (frame : Bytes) : (r.fanOut frame).2.1 =
    ⟨(r.connections.filter isActive).countP fun c => (c.post frame).2.1,
      (r.connections.filter isActive).countP fun c => !(c.post frame).2.1⟩ := by
  unfold fanOut
  dsimp only
  rw [List.countP_map, List.countP_map, List.countP_filter, List.countP_filter]
  have hc : ∀ c : Connection, ∀ b : Bool, ((if isActive c then
      ((c.post frame).1, some (c.post frame).2.1, (c.post frame).2.2) else (c, none, [])).2.1 ==
        some b) = ((c.post frame).2.1 == b && isActive c) := by
    intro c b
    cases isActive c
    · exact (Bool.and_false _).symm
    · exact (Bool.and_true _).symm
  congr 1
  · apply List.countP_congr
    intro c _
    rw [Function.comp, hc, beq_true]
  · apply List.countP_congr
    intro c _
    rw [Function.comp, hc, beq_false]

theorem events_fanOut (r : Room) (frame : Bytes) : (r.fanOut frame).2.2 =
    (r.connections.filter isActive).flatMap fun c => (c.post frame).2.2 := by
  unfold fanOut
  dsimp only
  rw [List.flatMap_map]
  induction r.connections with
  | nil => rfl
  | cons c cs ih =>
    rw [List.flatMap_cons, ih, List.filter_cons]
    split
    · rw [List.flatMap_cons]
    · rfl

/-- In whatever order the members are visited, the room and the report are those of the frame for
all, and so are the events up to their order. -/
theorem fanOutIn_eq (hr : (r.connections.map Connection.id).Nodup) (hm : members.Perm r.members)
    (frame : Bytes) : ∃ events, events.Perm (r.fanOut frame).2.2 ∧
      r.fanOutIn frame members = ((r.fanOut frame).1, (r.fanOut frame).2.1, events) := by
  have hp := filter_isActive_perm hm
  have hn : ((members.filter isActive).map Connection.id).Nodup :=
    (hp.map Connection.id).nodup_iff.2 (hr.sublist (List.filter_sublist.map Connection.id))
  have hs : ∀ c ∈ members.filter isActive, c ∈ r.connections :=
    fun c hc => (List.mem_filter.1 (hp.subset hc)).1
  have hc : (r.connections.map fun c => if c.id ∈ (members.filter isActive).map Connection.id
      then (c.post frame).1 else c) = (r.fanOut frame).1.connections := by
    rw [connections_fanOut]
    apply List.map_congr_left
    intro c hc
    simp only [mem_map_id_iff hr hp hc]
  refine ⟨(members.filter isActive).flatMap fun c => (c.post frame).2.2, ?_, ?_⟩
  · rw [events_fanOut]
    exact hp.flatMap_right _
  · rw [fanOutIn, foldl_sendTo frame hn r ⟨0, 0⟩ [] hr hs, hc, report_fanOut, hp.countP_eq,
      hp.countP_eq, Nat.zero_add, Nat.zero_add, List.nil_append]
    rfl

theorem ids_fanOut (r : Room) (frame : Bytes) :
    (r.fanOut frame).1.connections.map Connection.id = r.connections.map Connection.id := by
  rw [connections_fanOut, List.map_map]
  apply List.map_congr_left
  intro c _
  rw [Function.comp]
  split
  · exact c.id_post frame
  · rfl

theorem isActive_post (hc : isActive c = true) (frame : Bytes) :
    isActive (c.post frame).1 = (c.post frame).2.1 := by
  rw [Connection.delivered_post]
  cases h : (c.send frame).2 with
  | none => exact (Connection.reached_post hc h).active
  | some e =>
    rw [isActive, (Connection.lost_post hc h).listed]
    rfl

theorem activeCount_fanOut (r : Room) (frame : Bytes) :
    (r.fanOut frame).1.activeCount = (r.fanOut frame).2.1.delivered := by
  rw [report_fanOut, activeCount, connections_fanOut, List.countP_map, List.countP_filter]
  apply List.countP_congr
  intro c _
  rw [Function.comp]
  split
  · rename_i hc
    rw [isActive_post hc, hc, Bool.and_true]
  · rename_i hc
    simp [hc]

/-- A frame for all reaches every active connection or loses it, and touches nobody else, in
whatever order the members are visited: the room, the report and the events, these up to their
order, are always the same. The report counts the reached, who are those still active, and the
lost. -/
theorem reached_or_lost (hr : (r.connections.map Connection.id).Nodup)
    (hm : members.Perm r.members) (frame : Bytes) :
    let result := r.fanOutIn frame members
    let t := result.1
    let report := result.2.1
    (t = (r.fanOut frame).1 ∧ report = (r.fanOut frame).2.1 ∧
      result.2.2.Perm (r.fanOut frame).2.2) ∧
    t = { r with connections := t.connections } ∧
    t.connections.map Connection.id = r.connections.map Connection.id ∧
    (∀ c ∈ r.connections, isActive c = false → t.connection? c.id = some c) ∧
    (∀ c ∈ r.connections, isActive c = true →
      ∃ d, t.connection? c.id = some d ∧ (c.Reached frame d ∨ c.Lost frame d)) ∧
    report.delivered = r.connections.countP (fun c => isActive c && (c.send frame).2.isNone) ∧
    report.dropped = r.connections.countP (fun c => isActive c && (c.send frame).2.isSome) ∧
    report.delivered + report.dropped = r.activeCount ∧
    t.activeCount = report.delivered := by
  obtain ⟨events, he, hf⟩ := fanOutIn_eq hr hm frame
  have hfind : ∀ c ∈ r.connections, (r.fanOut frame).1.connection? c.id =
      some (if isActive c then (c.post frame).1 else c) := by
    intro c hc
    rw [connection?_fanOut, connection?_eq hr hc, Option.map_some]
  rw [hf]
  refine ⟨⟨rfl, rfl, he⟩, rfl, r.ids_fanOut frame, ?_, ?_, ?_, ?_, ?_, r.activeCount_fanOut frame⟩
  · intro c hc ha
    rw [hfind c hc, ha]
    rfl
  · intro c hc ha
    refine ⟨(c.post frame).1, by rw [hfind c hc, if_pos ha], ?_⟩
    cases h : (c.send frame).2 with
    | none => exact .inl (Connection.reached_post ha h)
    | some e => exact .inr (Connection.lost_post ha h)
  · rw [report_fanOut]
    dsimp only
    rw [List.countP_filter]
    simp only [Connection.delivered_post, Bool.and_comm]
  · rw [report_fanOut]
    dsimp only
    rw [List.countP_filter]
    simp only [Connection.delivered_post, Option.not_isNone, Bool.and_comm]
  · have hl := List.length_eq_countP_add_countP (fun c => (c.post frame).2.1)
      (l := r.connections.filter isActive)
    simp only [Bool.not_eq_true, Bool.decide_eq_false] at hl
    rw [report_fanOut]
    exact hl.symm.trans List.countP_eq_length_filter.symm

/-- Of three active members one has its socket full and is queued the frame, one has too much
waiting and one has lost its peer. A fourth is closing and keeps what it had. -/
theorem reached_or_lost_backwards :
    let canvas : Canvas := ⟨1, 1, .replicate 1 Palette.white, .replicate 1 none, 0, rfl, rfl,
      fun _ hc => (Array.mem_replicate.1 hc).2 ▸ Palette.has_white, by decide⟩
    let member : Nat → Phase → Standing → Connection := fun id phase standing =>
      ⟨id, "peer", phase, .new 8, ⟨[[7, 7]], 4⟩, ⟨[], standing, [], false, none⟩, true⟩
    let full := member 1 .active .full
    let slow := { member 2 .active .full with outbox := ⟨[[7, 7], [8]], 4⟩ }
    let broken := member 3 .active .broken
    let closing := member 4 .closing .ready
    let r : Room := ⟨canvas, [full, slow, broken, closing], 4, 8, 4, none⟩
    let result := r.fanOutIn [1, 2] [closing, broken, slow, full]
    (r.connections.map Connection.id).Nodup ∧ [closing, broken, slow, full].Perm r.members ∧
      result.1 = (r.fanOut [1, 2]).1 ∧ result.2.1 = ⟨1, 2⟩ ∧
      (result.1.connections.map fun c => (c.phase, c.listed, c.outbox.frames)) =
        [(.active, true, [[7, 7], [1, 2]]), (.closed, false, [[7, 7], [8]]),
          (.closed, false, [[7, 7], [1, 2]]), (.closing, true, [[7, 7]])] := by
  intro canvas member full slow broken closing r result
  have hr : (r.connections.map Connection.id).Nodup := by decide
  have hm : [closing, broken, slow, full].Perm r.members := by decide
  obtain ⟨⟨ht, hreport, -⟩, -⟩ := reached_or_lost hr hm [1, 2]
  refine ⟨hr, hm, ht, hreport.trans ?_, ?_⟩
  · cbv
  · rw [ht]
    cbv

end Room
end SharedCanvas
