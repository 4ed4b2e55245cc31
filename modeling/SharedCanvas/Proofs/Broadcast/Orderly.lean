import SharedCanvas.Proofs.Connection.Given
import SharedCanvas.Room
import Mathlib.Data.List.Nodup

namespace SharedCanvas

namespace Connection

variable {c d : Connection}

/-- The connection was not made active, and nothing was queued for it. -/
def Rests (c d : Connection) : Prop := c.Queues [] d ∧ (d.phase = .active → c.phase = .active)

theorem Rests.refl (c : Connection) : c.Rests c := ⟨.nil c, fun h => h⟩

theorem rests_teardown (c : Connection) (reason : Reason) : c.Rests (c.teardown reason).1 := by
  refine ⟨queues_teardown c reason, ?_⟩
  intro h
  unfold teardown at h
  split at h
  · exact absurd h c.phase_release_ne_active
  · exact h

theorem rests_writable (hl : c.listed = true) : c.Rests c.writable.1 := by
  have hw : c.write.1.listed = true := hl
  -- A flush that fails and one that is the last both end in a teardown.
  have ht : ∀ reason, c.Rests (c.write.1.teardown reason).1 := by
    intro reason
    rw [teardown_of_listed hw]
    have hi : c.write.1.id = c.id := rfl
    have hq := queues_release hi hl []
    exact ⟨hq, fun h => absurd h c.write.1.phase_release_ne_active⟩
  have hk : c.Rests c.write.1 :=
    ⟨⟨rfl, fun h => h, fun _ => ⟨rfl, by rw [given_write, List.append_nil]⟩⟩, fun h => h⟩
  unfold writable flush
  rcases hwr : c.write with ⟨d, e⟩
  rw [hwr] at ht hk
  cases e with
  | some e => exact ht (.error e)
  | none =>
    dsimp only
    split
    · rename_i hd
      simp at hd
    · rename_i hd
      rw [Prod.mk.injEq] at hd
      rw [← hd.1]
      exact ht .handshakeComplete
    · rename_i hd
      rw [Prod.mk.injEq] at hd
      rw [← hd.1]
      exact hk

theorem not_isLeaving_of_advance (h : (c.advance .active).phase = .active) :
    c.phase.isLeaving = false := by
  cases hp : c.phase with
  | handshaking => rfl
  | active => rfl
  | closing => simp [advance, hp, Phase.rank] at h
  | closed => simp [advance, hp, Phase.rank] at h

/-- A connection that is sent the picture is active only if the picture was queued. -/
theorem queues_sendPicture (canvas : Canvas) (hl : c.listed = true) :
    let result := (Visit.mk canvas c #[]).sendPicture
    c.Queues (Frame.encode .binary canvas.snapshot.encode)
      (Room.settle result.1.conn (result.2.map .fail)).1 := by
  have hk := c.send_keeps (Frame.encode .binary canvas.snapshot.encode)
  dsimp only
  unfold Visit.sendPicture Visit.send
  rcases hs : c.send (Frame.encode .binary canvas.snapshot.encode) with ⟨d, e⟩
  rw [hs] at hk
  obtain ⟨hi, hdl, hph, -, -⟩ := hk
  cases e with
  | some e => exact queues_drop (hdl.trans hl) hi hl _ e
  | none =>
    have hg : (d.advance .active).phase = .active →
        d.given = c.given ++ Frame.encode .binary canvas.snapshot.encode :=
      fun ha => given_send hs (hph ▸ not_isLeaving_of_advance ha)
    obtain ⟨phase, hadv⟩ := d.advance_eq .active
    dsimp only [Option.map_none, Room.settle]
    rw [hadv] at hg ⊢
    exact ⟨hi, fun _ => hl, fun ha => ⟨hdl, hg ha⟩⟩

end Connection

namespace Room

structure Orderly (r : Room) : Prop where
  ids : (r.connections.map Connection.id).Nodup
  listed : ∀ c ∈ r.connections, c.phase = .active → c.listed = true
  crowd : r.memberCount ≤ r.maxClients

variable {r t : Room} {c d : Connection} {id : Nat}

theorem mem_of_connection? (h : r.connection? id = some c) : c ∈ r.connections ∧ c.id = id := by
  rw [connection?] at h
  have hi := List.find?_some h
  exact ⟨List.mem_of_find?_eq_some h, beq_iff_eq.1 hi⟩

theorem mem_of_member? (h : r.member? id = some c) :
    c ∈ r.connections ∧ c.id = id ∧ c.listed = true := by
  rw [member?, Option.filter_eq_some_iff] at h
  obtain ⟨hm, hi⟩ := mem_of_connection? h.1
  exact ⟨hm, hi, h.2⟩

theorem connection?_put_eq (r : Room) (d : Connection) (i : Nat) : (r.put d).connection? i =
    (r.connection? i).map fun b => if b.id = d.id then d else b := by
  -- Whoever is put in a place has the id of that place, so the same place is found.
  have hp : ((fun b : Connection => b.id == i) ∘ fun b => if b.id = d.id then d else b) =
      fun b => b.id == i := by
    funext b
    rw [Function.comp]
    split
    · rename_i hb
      rw [hb]
    · rfl
  rw [connection?, put, List.find?_map, hp, connection?]

theorem connection?_put (hc : r.connection? id = some c) (hd : d.id = id) :
    (r.put d).connection? id = some d := by
  rw [connection?_put_eq, hc, Option.map_some]
  exact congrArg some (if_pos ((mem_of_connection? hc).2.trans hd.symm))

theorem connection?_put_of_ne {i : Nat} (h : i ≠ d.id) :
    (r.put d).connection? i = r.connection? i := by
  rw [connection?_put_eq]
  cases hf : r.connection? i with
  | none => rfl
  | some b => rw [Option.map_some, if_neg ((mem_of_connection? hf).2 ▸ h)]

theorem eq_of_id (h : (r.connections.map Connection.id).Nodup) (hc : c ∈ r.connections)
    (hd : d ∈ r.connections) (hi : c.id = d.id) : c = d := List.inj_on_of_nodup_map h hc hd hi

theorem connection?_eq (h : (r.connections.map Connection.id).Nodup) (hc : c ∈ r.connections) :
    r.connection? c.id = some c := by
  cases hf : r.connection? c.id with
  | none =>
    have := List.find?_eq_none.1 hf c hc
    simp at this
  | some d =>
    obtain ⟨hm, hi⟩ := mem_of_connection? hf
    rw [eq_of_id h hm hc hi]

theorem ids_put (r : Room) (d : Connection) :
    (r.put d).connections.map Connection.id = r.connections.map Connection.id := by
  rw [put, List.map_map]
  apply List.map_congr_left
  intro b _
  rw [Function.comp]
  split
  · rename_i hb
    exact hb.symm
  · rfl

theorem Orderly.eq_of_id (h : r.Orderly) (hc : c ∈ r.connections) (hd : d ∈ r.connections)
    (hi : c.id = d.id) : c = d := Room.eq_of_id h.ids hc hd hi

theorem Orderly.connection?_eq (h : r.Orderly) (hc : c ∈ r.connections) :
    r.connection? c.id = some c := Room.connection?_eq h.ids hc

theorem isActive_iff : isActive c = true ↔ c.listed = true ∧ c.phase = .active := by
  rw [isActive, Bool.and_eq_true, beq_iff_eq]

theorem memberCount_eq (r : Room) : r.memberCount = r.connections.countP (·.listed) :=
  List.countP_eq_length_filter.symm

theorem activeCount_le (r : Room) : r.activeCount ≤ r.memberCount := by
  rw [memberCount_eq, activeCount]
  apply List.countP_mono_left
  intro c _ h
  exact (isActive_iff.1 h).1

/-- The connections change one by one. -/
theorem Orderly.of_map (h : r.Orderly) {f : Connection → Connection}
    (hc : t.connections = r.connections.map f) (hm : t.maxClients = r.maxClients)
    (hf : ∀ c ∈ r.connections, (f c).id = c.id ∧ ((f c).listed = true → c.listed = true) ∧
      ((f c).phase = .active → (f c).listed = true)) : t.Orderly := by
  refine ⟨?_, ?_, ?_⟩
  · have hi : r.connections.map (fun c => (f c).id) = r.connections.map Connection.id :=
      List.map_congr_left fun c hc => (hf c hc).1
    rw [hc, List.map_map]
    change (r.connections.map fun c => (f c).id).Nodup
    rw [hi]
    exact h.ids
  · intro d hd
    rw [hc] at hd
    obtain ⟨c, hcm, rfl⟩ := List.mem_map.1 hd
    exact (hf c hcm).2.2
  · have hle : t.memberCount ≤ r.memberCount := by
      rw [memberCount_eq, memberCount_eq, hc, List.countP_map]
      exact List.countP_mono_left fun c hcm hl => (hf c hcm).2.1 hl
    rw [hm]
    exact Nat.le_trans hle h.crowd

theorem Orderly.rests (h : r.Orderly) {f : Connection → Connection}
    (hc : t.connections = r.connections.map f) (hm : t.maxClients = r.maxClients)
    (hf : ∀ c ∈ r.connections, c.Rests (f c)) : t.Orderly := by
  refine h.of_map hc hm ?_
  intro c hcm
  obtain ⟨hq, ha⟩ := hf c hcm
  refine ⟨hq.id, hq.listed, ?_⟩
  intro hp
  rw [(hq.active hp).1]
  exact h.listed c hcm (ha hp)

theorem put_eq_map (r : Room) (d : Connection) : (r.put d).connections =
    r.connections.map fun c => if c.id = d.id then d else c := rfl

theorem Orderly.put_cases (h : r.Orderly) (hc : c ∈ r.connections) (hd : d.id = c.id)
    {motive : Connection → Connection → Prop} (hnew : motive c d)
    (hold : ∀ b ∈ r.connections, b.id ≠ c.id → motive b b) :
    ∀ b ∈ r.connections, motive b (if b.id = d.id then d else b) := by
  intro b hb
  by_cases hi : b.id = d.id
  · have hbc : b = c := h.eq_of_id hb hc (hi.trans hd)
    rw [if_pos hi, hbc]
    exact hnew
  · rw [if_neg hi]
    exact hold b hb (hd ▸ hi)

theorem connections_fanOut (r : Room) (frame : Bytes) : (r.fanOut frame).1.connections =
    r.connections.map fun c => if isActive c then (c.post frame).1 else c := by
  unfold fanOut
  dsimp only
  rw [List.map_map]
  apply List.map_congr_left
  intro c _
  rw [Function.comp]
  split <;> rfl

theorem Orderly.fanOut (h : r.Orderly) (frame : Bytes) : (r.fanOut frame).1.Orderly := by
  refine h.of_map (r.connections_fanOut frame) rfl ?_
  intro c hc
  split
  · rename_i hact
    obtain ⟨hl, ha⟩ := isActive_iff.1 hact
    have hq := Connection.queues_post hl (by rw [ha]; rfl) frame
    exact ⟨hq.id, hq.listed, fun hp => (hq.active hp).1.trans hl⟩
  · exact ⟨rfl, fun hl => hl, h.listed c hc⟩

/-- Whoever is active after a frame for all was active before, and has been queued the frame. -/
theorem Orderly.queues_of_fanOut (h : r.Orderly) {frame : Bytes}
    (hd : d ∈ (r.fanOut frame).1.connections) (ha : d.phase = .active) :
    ∃ c ∈ r.connections, isActive c = true ∧ c.Queues frame d := by
  rw [connections_fanOut] at hd
  obtain ⟨c, hc, rfl⟩ := List.mem_map.1 hd
  have hca : c.phase = .active := by
    split at ha
    · exact Connection.active_of_active_post ha
    · exact ha
  have hl := h.listed c hc hca
  have hact := isActive_iff.2 ⟨hl, hca⟩
  refine ⟨c, hc, hact, ?_⟩
  rw [if_pos hact]
  exact Connection.queues_post hl (by rw [hca]; rfl) frame

theorem connection?_fanOut (r : Room) (frame : Bytes) (id : Nat) :
    (r.fanOut frame).1.connection? id =
      (r.connection? id).map fun c => if isActive c then (c.post frame).1 else c := by
  have hp : ((fun c : Connection => c.id == id) ∘ fun c =>
      if isActive c then (c.post frame).1 else c) = fun c => c.id == id := by
    funext c
    rw [Function.comp]
    split
    · rw [c.id_post]
    · rfl
  rw [connection?, connections_fanOut, List.find?_map, hp, connection?]

theorem handOff_cases (r : Room) (lanes : Lanes) (ps : List Pixel) :
    ps = [] ∧ r.handOff lanes ps = (r, lanes, 0, []) ∨
    (ps ≠ [] ∧ ∃ lanes' events,
      lanes.submit (.broadcast (Delta.toJson ⟨r.activeCount, ps⟩)) = .ok lanes' ∧
        r.handOff lanes ps = (r, lanes', ps.length, events)) ∨
    ∃ events, r.handOff lanes ps =
      ({ r with canvas := r.canvas.restore ps }, lanes, 0, events) := by
  unfold handOff
  split
  · rename_i he
    exact .inl ⟨List.isEmpty_iff.1 he, rfl⟩
  · rename_i he
    split
    · rename_i lanes' hl
      exact .inr (.inl ⟨fun h => he (List.isEmpty_iff.2 h), lanes', _, hl, rfl⟩)
    · exact .inr (.inr ⟨_, rfl⟩)

theorem ne_of_connection? (hi : r.connection? id = none) (hc : c ∈ r.connections) : c.id ≠ id := by
  intro he
  have hn := List.find?_eq_none.1 hi c hc
  rw [he] at hn
  exact hn (beq_self_eq_true id)

def newcomer (r : Room) (id : Nat) (peer : String) (socket : Socket) : Connection :=
  { Connection.new id peer socket r.recvCapacity r.outboxLimit with listed := true }

/-- The connection has just been taken in, and may have been torn down at once. -/
def IsNew (r : Room) (id : Nat) (peer : String) (socket : Socket) (c : Connection) : Prop :=
  c = r.newcomer id peer socket ∨ c = (r.newcomer id peer socket).release

theorem IsNew.id_eq {peer : String} {socket : Socket} (h : r.IsNew id peer socket c) :
    c.id = id := by
  rcases h with rfl | rfl
  · rfl
  · exact (r.newcomer id peer socket).id_release

theorem IsNew.not_active {peer : String} {socket : Socket} (h : r.IsNew id peer socket c) :
    c.phase ≠ .active := by
  rcases h with rfl | rfl
  · nofun
  · exact (r.newcomer id peer socket).phase_release_ne_active

/-- Whoever comes is refused, or stands behind all others. -/
theorem accept_cases (r : Room) (id : Nat) (peer : String) (socket : Socket) :
    (r.accept id peer socket).1 = r ∨ r.memberCount < r.maxClients ∧
      ∃ c, r.IsNew id peer socket c ∧
        (r.accept id peer socket).1 = { r with connections := r.connections ++ [c] } := by
  unfold accept insert
  by_cases hn : r.memberCount ≥ r.maxClients
  · rw [if_pos hn]
    exact .inl rfl
  · rw [if_neg hn]
    refine .inr ⟨Nat.lt_of_not_le hn, (watch (r.newcomer id peer socket)).1, ?_, rfl⟩
    unfold watch
    split
    · exact .inl rfl
    · exact .inr (congrArg Prod.fst (Connection.teardown_of_listed rfl .unwatched))

theorem accept_of_lt {socket : Socket} (hn : r.memberCount < r.maxClients)
    (hw : socket.unwatchable = none) (id : Nat) (peer : String) : (r.accept id peer socket).1 =
      { r with connections := r.connections ++ [r.newcomer id peer socket] } := by
  have hwatch : watch (r.newcomer id peer socket) =
      (r.newcomer id peer socket, [.accepted id peer]) := by
    rw [watch, show (r.newcomer id peer socket).socket.unwatchable = none from hw]
    rfl
  rw [accept, insert, if_neg (Nat.not_le_of_lt hn)]
  exact congrArg (fun w => { r with connections := r.connections ++ [w.1] }) hwatch

theorem Orderly.accept (h : r.Orderly) (hi : r.connection? id = none) (peer : String)
    (socket : Socket) : (r.accept id peer socket).1.Orderly := by
  rcases r.accept_cases id peer socket with he | ⟨hn, d, hd, he⟩
  · rw [he]
    exact h
  · -- Nobody has the newcomer's id, and there is room for one more.
    rw [he]
    refine ⟨?_, ?_, ?_⟩
    · rw [List.map_append, List.map_singleton]
      refine List.nodup_append.2 ⟨h.ids, List.nodup_singleton _, ?_⟩
      rintro a ha b hb rfl
      rw [List.mem_singleton] at hb
      obtain ⟨c, hc, hca⟩ := List.mem_map.1 ha
      exact ne_of_connection? hi hc (hca.trans (hb.trans hd.id_eq))
    · intro c hc hp
      rcases List.mem_append.1 hc with hc | hc
      · exact h.listed c hc hp
      · rw [List.mem_singleton.1 hc] at hp
        exact absurd hp hd.not_active
    · rw [memberCount_eq] at hn ⊢
      rw [List.countP_append, List.countP_singleton]
      change _ ≤ r.maxClients
      split <;> omega

end Room
end SharedCanvas
