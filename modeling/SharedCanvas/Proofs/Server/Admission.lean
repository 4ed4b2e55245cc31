import SharedCanvas.Proofs.Broadcast.Eviction
import SharedCanvas.Proofs.Server.Restart
import SharedCanvas.Proofs.Session.Confined
import SharedCanvas.Proofs.Session.Joining
import SharedCanvas.Proofs.Word

namespace SharedCanvas

/-- `outboxLimit` computed in machine words. -/
def Config.limitInWords (c : Config) : Except Slip Nat := do
  let payload ← Word.add Snapshot.headerLength (← Word.mul c.width.toNat c.height.toNat)
  let frame ← Word.add (Frame.headerLength payload false) payload
  return max c.maxOutbox (← Word.add frame headroom)

theorem Frame.headerLength_le_ten (n : Nat) : headerLength n false ≤ 10 := by
  rw [headerLength, extensionFor, if_neg Bool.false_ne_true]
  split_ifs <;> omega

theorem Config.room_le (c : Config) :
    Frame.headerLength (Snapshot.headerLength + c.width.toNat * c.height.toNat) false +
      (Snapshot.headerLength + c.width.toNat * c.height.toNat) + headroom ≤ maxWord64 := by
  have hside : ∀ n : UInt16, n.toNat ≤ 65535 := by
    intro n
    have := n.toNat_lt
    omega
  have harea := Nat.mul_le_mul (hside c.width) (hside c.height)
  have hh := Frame.headerLength_le_ten (Snapshot.headerLength + c.width.toNat * c.height.toNat)
  have hword : 10 + (Snapshot.headerLength + 65535 * 65535) + headroom ≤ maxWord64 := by decide
  exact Nat.le_trans
    (Nat.add_le_add_right (Nat.add_le_add hh (Nat.add_le_add_left harea _)) _) hword

theorem Config.limitInWords_eq (c : Config) : c.limitInWords = .ok c.outboxLimit := by
  have hroom := c.room_le
  have hframe := Nat.le_trans (Nat.le_add_right _ _) hroom
  have hpayload := Nat.le_trans (Nat.le_add_left _ _) hframe
  have harea := Nat.le_trans (Nat.le_add_left _ _) hpayload
  refine bind_eq_ok_iff.2 ⟨_, Word.mul_of_le harea, ?_⟩
  refine bind_eq_ok_iff.2 ⟨_, Word.add_of_le hpayload, ?_⟩
  refine bind_eq_ok_iff.2 ⟨_, Word.add_of_le hframe, ?_⟩
  exact bind_eq_ok_iff.2 ⟨_, Word.add_of_le hroom, rfl⟩

theorem Config.outboxLimit_le {c : Config} (h : c.maxOutbox ≤ maxWord64) :
    c.outboxLimit ≤ maxWord64 := Nat.max_le.2 ⟨h, c.room_le⟩

theorem Inbox.capacity_append {i j : Inbox} {bytes : Bytes} (h : i.append bytes = .ok j) :
    j.capacity = i.capacity := by
  unfold Inbox.append at h
  dsimp only at h
  split at h
  · simp at h
  · rw [Except.ok.injEq] at h
    rw [← h]

namespace Visit

/-- Whoever has been answered is not taken back. -/
theorem preserves_answered : Preserves fun c => c.phase ≠ .handshaking := by
  refine ⟨⟨?_, fun hc _ => hc, fun _ hc => hc⟩, ?_, fun hc _ => hc, fun hc _ => hc⟩
  · intro c bytes hc
    rw [(c.send_keeps bytes).2.2.1]
    exact hc
  · intro c hc
    unfold Connection.advance
    split
    · nofun
    · exact hc

variable {v w : Visit}

theorem outbox_greet (site : Option Site) (hp : v.conn.phase = .handshaking)
    (h : v.greet site = (w, none)) (hw : w.conn.phase = .handshaking) :
    w.conn.outbox = v.conn.outbox := by
  unfold greet at h
  split at h
  · simp at h
  · rw [Prod.mk.injEq] at h
    rw [← h.1]
    rfl
  · rename_i request n _
    have hs := (reports_serve ((v.setStaged (v.conn.inbox.staged.drop n)).setMidUnit false) site
      request).2
    rw [h] at hs
    exact absurd rfl hs
  · split at h
    · simp at h
    · rename_i response n _ _ u hu
      split at h
      · simp at h
      · rename_i x hx
        have hup : u.conn.phase = .handshaking := by
          obtain ⟨-, hph, -⟩ := (v.setStaged (v.conn.inbox.staged.drop n)).send_spec response
          rw [hu] at hph
          exact hph.trans hp
        have hxp : x.conn.phase ≠ .handshaking := by
          obtain ⟨-, -, -, hph⟩ := u.sendPicture_spec
          rw [hx] at hph
          rw [hph hup rfl]
          nofun
        have ht := preserves_answered.takeFrames (v := x.report (.upgraded x.conn.id)) hxp
        rw [h] at ht
        exact absurd hw ht

theorem outbox_receive (site : Option Site) (bytes : Bytes) (hp : v.conn.phase = .handshaking)
    (h : v.receive site bytes = (w, none)) (hw : w.conn.phase = .handshaking) :
    w.conn.outbox = v.conn.outbox := by
  rcases v.receive_cases site (by rw [hp]; rfl) bytes with ⟨-, e, he⟩ | hrec
  · rw [he] at h
    simp at h
  · rw [hrec, if_pos hp] at h
    exact outbox_greet (v := v.setStaged (v.conn.inbox.staged ++ bytes)) site hp h hw

end Visit

namespace Connection

/-- The connection may hold as much as the settings say, either way. -/
structure Holds (config : Config) (c : Connection) : Prop where
  limit : c.outbox.limit = config.outboxLimit
  capacity : c.inbox.capacity = config.recvBuffer

/-- Besides, nothing waits for it as long as its request is not answered. -/
structure Waits (config : Config) (c : Connection) : Prop extends Holds config c where
  idle : c.phase = .handshaking → c.outbox.frames = []

variable {config : Config} {c d : Connection} {canvas : Canvas} {site : Option Site}
  {heard heard' : List Bytes}

theorem Holds.of_eq (h : c.Holds config) (ho : d.outbox.limit = c.outbox.limit)
    (hi : d.inbox.capacity = c.inbox.capacity) : d.Holds config :=
  ⟨ho.trans h.limit, hi.trans h.capacity⟩

theorem Holds.waits (h : c.Holds config) (hp : c.phase ≠ .handshaking) : c.Waits config :=
  ⟨h, fun hc => absurd hc hp⟩

theorem preserves_holds (config : Config) : Visit.Preserves (Holds config) := by
  refine ⟨⟨?_, fun hc _ => ⟨hc.limit, hc.capacity⟩, fun _ hc => ⟨hc.limit, hc.capacity⟩⟩, ?_, ?_,
    fun hc _ => ⟨hc.limit, hc.capacity⟩⟩
  · intro c bytes hc
    obtain ⟨-, -, -, hin, hlim⟩ := c.send_keeps bytes
    exact hc.of_eq hlim (congrArg Inbox.capacity hin)
  · intro c hc
    obtain ⟨phase, hp⟩ := c.advance_eq .active
    rw [hp]
    exact ⟨hc.limit, hc.capacity⟩
  · intro c bytes inbox hc hi
    exact ⟨hc.limit, (Inbox.capacity_append hi).trans hc.capacity⟩

theorem Holds.release (h : c.Holds config) : c.release.Waits config := by
  rw [release_eq]
  exact Holds.waits ⟨h.limit, h.capacity⟩ nofun

theorem Holds.settle (h : c.Holds config) (hl : c.listed = true) (halt : Option Halt) :
    (Room.settle c halt).1.Holds config := by
  rcases halt with _ | _ | e
  · exact h
  · obtain ⟨phase, -, hs⟩ := Room.settle_leave hl
    rw [hs]
    split
    · exact (Holds.release (c := { c with phase }) ⟨h.limit, h.capacity⟩).toHolds
    · exact ⟨h.limit, h.capacity⟩
  · rw [Room.settle_fail hl]
    exact h.release.toHolds

theorem Waits.visited (h : c.Waits config) (hl : c.listed = true) (canvas : Canvas)
    (site : Option Site) (bytes : Bytes) : (c.visited canvas site bytes).1.Waits config := by
  have hlim := (preserves_holds config).receive (v := ⟨canvas, c, #[]⟩) h.toHolds site bytes
  have hlist := ((preserves_member c.id c.listed).receive (v := ⟨canvas, c, #[]⟩) ⟨rfl, rfl⟩ site
    bytes).2.trans hl
  rw [Connection.visited]
  rcases hr : (Visit.mk canvas c #[]).receive site bytes with ⟨v, halt⟩
  rw [hr] at hlim hlist
  dsimp only at hlim hlist ⊢
  cases halt with
  | some halt =>
    refine (hlim.settle hlist (some halt)).waits ?_
    exact (ne_of_isLeaving ((stays_settle hlist (some halt)).2 rfl)).1
  | none =>
    refine ⟨hlim, fun hp => ?_⟩
    have hcp : c.phase = .handshaking := by
      apply Classical.byContradiction
      intro hn
      have hv := Visit.preserves_answered.receive (v := ⟨canvas, c, #[]⟩) hn site bytes
      rw [hr] at hv
      exact hv hp
    have ho := Visit.outbox_receive (v := ⟨canvas, c, #[]⟩) site bytes hcp hr hp
    exact (congrArg Outbox.frames ho).trans (h.idle hcp)

theorem Waits.write (h : c.Waits config) : c.write.1.Waits config := by
  refine ⟨⟨h.limit, h.capacity⟩, fun hp => ?_⟩
  rw [Connection.write, Outbox.flush]
  dsimp only
  rw [h.idle hp, Outbox.writeFrames]

theorem Waits.moves (h : c.Waits config) (hm : c.Moves canvas site heard heard' d) :
    d.Waits config := by
  cases hm with
  | rest => exact h
  | missed hl bytes => exact h
  | visited hl bytes => exact h.visited hl canvas site bytes
  | released hl => exact h.release
  | writable hl =>
    rcases writable_cases hl with hw | ⟨hw, -⟩
    · rw [hw]
      exact h.write.release
    · rw [hw]
      exact h.write
  | posted hl ha frame =>
    obtain ⟨-, -, hp, hin, hlim⟩ := c.send_keeps frame
    have hs := h.toHolds.of_eq hlim (congrArg Inbox.capacity hin)
    rcases post_cases hl frame with hd | hd
    · rw [hd]
      exact hs.waits (by rw [hp, ha]; nofun)
    · rw [hd]
      exact hs.release
  | stood standing => exact ⟨⟨h.limit, h.capacity⟩, h.idle⟩

end Connection

namespace Room

/-- The room has space for whoever comes, as the settings say. -/
structure Welcomes (config : Config) (r : Room) : Prop where
  width : r.canvas.width = config.width
  height : r.canvas.height = config.height
  limit : r.outboxLimit = config.outboxLimit
  capacity : r.recvCapacity = config.recvBuffer
  site : r.site.map Site.root = config.staticDir.map Bytes.ofString
  waits : ∀ c ∈ r.connections, c.Waits config

/-- Nothing is set otherwise in the other room. -/
structure SameSettings (r t : Room) : Prop where
  limit : t.outboxLimit = r.outboxLimit
  capacity : t.recvCapacity = r.recvCapacity
  site : t.site = r.site

variable {config : Config} {r t : Room}

theorem Welcomes.of_sameSize (h : r.Welcomes config) (hz : r.canvas.SameSize t.canvas)
    (hs : r.SameSettings t) (hw : ∀ c ∈ t.connections, c.Waits config) : t.Welcomes config :=
  ⟨hz.1.trans h.width, hz.2.trans h.height, hs.limit.trans h.limit, hs.capacity.trans h.capacity,
    hs.site ▸ h.site, hw⟩

theorem forall_put {motive : Connection → Prop} {d : Connection} (h : ∀ c ∈ r.connections, motive c)
    (hd : motive d) : ∀ c ∈ (r.put d).connections, motive c := by
  rw [put_eq_map, List.forall_mem_map]
  intro c hc
  split
  · exact hd
  · exact h c hc

theorem Welcomes.modify (h : r.Welcomes config) (id : Nat)
    {f : Connection → Connection × List Event}
    (hf : ∀ c, c.listed = true → c.Waits config → (f c).1.Waits config) :
    (r.modify id f).1.Welcomes config := by
  unfold Room.modify
  split
  · exact h
  · rename_i c hm
    obtain ⟨hc, -, hl⟩ := mem_of_member? hm
    exact h.of_sameSize (.refl _) ⟨rfl, rfl, rfl⟩ (forall_put h.waits (hf c hl (h.waits c hc)))

theorem Welcomes.teardown (h : r.Welcomes config) (id : Nat) (reason : Reason) :
    (r.teardown id reason).1.Welcomes config :=
  h.modify id fun c _ hc => hc.moves (c.moves_teardown r.canvas r.site [] reason)

theorem Welcomes.turnAway (h : r.Welcomes config) (rejection : Rejection Task) :
    (r.turnAway rejection).1.Welcomes config := by
  unfold Room.turnAway
  split
  · exact h
  · exact h.teardown _ _
  · exact h.teardown _ _
  · exact h

theorem Welcomes.withFiles (h : r.Welcomes config) (files : FileSystem) :
    (r.withFiles files).Welcomes config := by
  refine ⟨h.width, h.height, h.limit, h.capacity, ?_, h.waits⟩
  rw [← h.site]
  exact Option.map_map ..

theorem Welcomes.perform (h : r.Welcomes config) (task : Task) :
    (r.perform task).1.Welcomes config := by
  have hsize := r.sameSize_perform task
  cases task with
  | connect id peer socket =>
    rcases r.accept_cases id peer socket with hr | ⟨-, d, hd, hr⟩
    · rw [Room.perform, hr]
      exact h
    · rw [Room.perform, hr]
      have hnew : (r.newcomer id peer socket).Waits config := ⟨⟨h.limit, h.capacity⟩, fun _ => rfl⟩
      refine h.of_sameSize (.refl _) ⟨rfl, rfl, rfl⟩ ?_
      rw [List.forall_mem_append, List.forall_mem_singleton]
      refine ⟨h.waits, ?_⟩
      rcases hd with rfl | rfl
      · exact hnew
      · exact hnew.toHolds.release
  | data id bytes =>
    rw [Room.perform] at hsize ⊢
    rcases hm : r.member? id with _ | c
    · rw [Room.receive, hm]
      exact h
    · obtain ⟨hc, -, hl⟩ := mem_of_member? hm
      rw [receive_eq_visited hm] at hsize ⊢
      exact h.of_sameSize hsize ⟨rfl, rfl, rfl⟩
        (forall_put h.waits ((h.waits c hc).visited hl _ _ _))
  | hangUp id =>
    exact h.modify id fun c _ hc => hc.moves (c.moves_teardown r.canvas r.site [] _)
  | broadcast payload =>
    refine h.of_sameSize (.refl _) ⟨rfl, rfl, rfl⟩ ?_
    show ∀ c ∈ (r.fanOut (textFrame payload)).1.connections, _
    rw [connections_fanOut, List.forall_mem_map]
    intro c hc
    split
    · rename_i ha
      obtain ⟨hl, ha⟩ := isActive_iff.1 ha
      have hm : c.Moves r.canvas r.site [] [] (c.post (textFrame payload)).1 := .posted hl ha _
      exact (h.waits c hc).moves hm
    · exact h.waits c hc

/-- Neither a task, done or turned away, nor a half of a tick takes the space away. -/
theorem upholds_welcomes (config : Config) : Service.Upholds (Welcomes config) := by
  refine ⟨fun task h => h.perform task, fun rejection h => h.turnAway rejection,
    fun h => h.of_sameSize ⟨rfl, rfl⟩ ⟨rfl, rfl, rfl⟩ h.waits, ?_⟩
  intro r lanes ps h
  refine h.of_sameSize (r.sameSize_handOff lanes ps) ?_ ?_
  · rcases r.handOff_cases lanes ps with ⟨-, hr⟩ | ⟨-, _, _, -, hr⟩ | ⟨_, hr⟩ <;> rw [hr] <;>
      exact ⟨rfl, rfl, rfl⟩
  · rcases r.handOff_cases lanes ps with ⟨-, hr⟩ | ⟨-, _, _, -, hr⟩ | ⟨_, hr⟩ <;> rw [hr] <;>
      exact h.waits

theorem Welcomes.writableAll (h : r.Welcomes config) : r.writableAll.1.Welcomes config := by
  refine h.of_sameSize (.refl _) ⟨rfl, rfl, rfl⟩ ?_
  show ∀ c ∈ List.map _ (List.map _ r.connections), _
  rw [List.map_map, List.forall_mem_map]
  intro c hc
  dsimp only [Function.comp]
  split
  · rename_i he
    unfold hasEdge at he
    simp only [Bool.and_eq_true] at he
    have hm : c.Moves r.canvas r.site [] [] c.writable.1 := .writable he.1.1.1
    exact (h.waits c hc).moves hm
  · exact h.waits c hc

theorem Welcomes.stand (h : r.Welcomes config) (id : Nat) (standing : Standing) :
    (r.stand id standing).Welcomes config := by
  unfold Room.stand
  split
  · exact h
  · rename_i c hc
    obtain ⟨hcm, -⟩ := mem_of_connection? hc
    have hm : c.Moves r.canvas r.site [] [] { c with socket := { c.socket with standing } } :=
      .stood standing
    exact h.of_sameSize (.refl _) ⟨rfl, rfl, rfl⟩
      (forall_put h.waits ((h.waits c hcm).moves hm))

/-- A request to upgrade that is complete finds room for the answer and the picture, whatever is
painted until then. -/
theorem Welcomes.joins (h : r.Welcomes config) {c : Connection} (hc : c ∈ r.connections)
    {canvas : Canvas} (hz : r.canvas.SameSize canvas) {bytes response : Bytes} {n : Nat}
    (hp : c.phase = .handshaking)
    (hcap : c.inbox.staged.length + bytes.length ≤ c.inbox.capacity)
    (hr : Handshake.process (c.inbox.staged ++ bytes) = .ok (.upgraded response n)) :
    c.Joins canvas r.site bytes response n := by
  have hlim := (h.waits c hc).limit
  have hf := (h.waits c hc).idle hp
  obtain ⟨-, _, key, -, -, hkey⟩ := Handshake.exists_key_of_process hr
  have hlen : response.length = 129 := by rw [hkey, Handshake.length_upgradeResponse]
  have hq : c.outbox.queued = 0 := by rw [Outbox.queued, hf]; rfl
  have hpic : (Frame.encode .binary canvas.snapshot.encode).length + Config.headroom ≤
      config.outboxLimit := by
    have hpay : canvas.snapshot.encode.length =
        Snapshot.headerLength + config.width.toNat * config.height.toNat := by
      rw [Snapshot.length_encode, Canvas.length_pixels_snapshot, Canvas.area, hz.1, hz.2, h.width,
        h.height]
    rw [Frame.encode, Frame.length_encodeWith, hpay, Config.outboxLimit]
    exact Nat.le_max_right _ _
  have hfill : c.IsFilled := by
    rw [Connection.IsFilled, hf]
    exact List.forall_mem_nil _
  refine Connection.joins r.site hp hfill hcap hr ?_
  rw [hlim, hq, hlen]
  rw [Config.headroom] at hpic
  omega

theorem receive_of_joins {id n : Nat} {c : Connection} {bytes response : Bytes}
    (hm : r.member? id = some c) (hj : c.Joins r.canvas r.site bytes response n)
    (hs : c.socket.Lasts) : .upgraded id ∈ (r.receive id bytes).2 ∧
      ((c.inbox.staged ++ bytes).length = n → ∃ d, (r.receive id bytes).1.member? id = some d ∧
        d.phase = .active ∧
        d.given = c.given ++ (response ++ Frame.encode .binary r.canvas.snapshot.encode)) := by
  obtain ⟨hcm, hl⟩ := Option.filter_eq_some_iff.1 hm
  have hid := (mem_of_connection? hcm).2
  rcases hj with ⟨d, hd, hin, hrec⟩ | ⟨hn, -⟩
  · rw [receive_of_member hm, hrec]
    constructor
    · obtain ⟨more, he, -⟩ := (Visit.mk r.canvas d #[.upgraded c.id]).reports_takeFrames
      refine List.mem_append_left _ (Array.mem_toList_iff.2 ?_)
      rw [he, ← hid]
      exact Array.mem_append_left _ (Array.mem_singleton.2 rfl)
    · intro hlen
      have hnil : d.inbox.staged = [] := by
        rw [hin, ← hlen]
        exact List.drop_length
      let e : Connection := (((Visit.mk r.canvas d #[.upgraded c.id]).setStaged []).setMidUnit
        d.inbox.assembler.isPartial).conn
      rw [Visit.takeFrames_of_nil hnil]
      refine ⟨e, ?_, hd.phase, hd.given⟩
      show ((r.put e).connection? id).filter (·.listed) = some e
      have hel : e.listed = true := hd.listed.trans hl
      rw [connection?_put hcm (show e.id = id from hd.id.trans hid), Option.filter_some, if_pos hel]
  · exact absurd hs hn

end Room

namespace Server

/-- A step of the server, or more than that: any task is offered, whoever it comes from, any
connection is torn down, and either half of a tick is done at any time. -/
inductive Act : Server → Server → Prop
  | step {s t : Server} (h : Step s t) : Act s t
  | offer (s : Server) (task : Task) : Act s (s.offer task).1
  | teardown (s : Server) (id : Nat) (reason : Reason) :
    Act s (s.withRoom (s.room.teardown id reason).1)
  | drain (s : Server) : Act s s.drain
  | handOff (s : Server) (ps : List Pixel) : Act s (s.handOff ps)

/-- Any number of acts, in any order. -/
inductive Acts : Server → Server → Prop
  | refl (s : Server) : Acts s s
  | act {s t u : Server} (h : Acts s t) (ht : Act t u) : Acts s u

variable {s t : Server} {config : Config}

theorem Acts.of_run (h : Run s t) : Acts s t := by
  induction h with
  | refl => exact .refl _
  | step _ hst ih => exact ih.act (.step hst)

theorem Step.welcomes (hst : Step s t) (h : s.room.Welcomes config) : t.room.Welcomes config := by
  have hu := Room.upholds_welcomes config
  cases hst with
  | arrive peer socket => exact hu.offer h _
  | read id bytes => exact hu.offer h _
  | readEnd id => exact hu.offer h _
  | flush id =>
    refine h.modify id fun c hl hc => ?_
    have hm : c.Moves s.canvas s.room.site [] [] c.writable.1 := .writable hl
    exact hc.moves hm
  | writable => exact h.writableAll
  | stand id standing => exact h.stand id standing
  | work lane => exact hu.work h lane
  | drain => exact hu.drain h
  | handOff ps => exact hu.handOff s.service.lanes ps h
  | look hl => exact h
  | note v hv => exact h
  | copy v hv => exact h
  | draft v hv => exact h.withFiles _
  | publish v hv => exact h.withFiles _
  | others files => exact h.withFiles files

theorem Acts.welcomes (hr : Acts s t) (h : s.room.Welcomes config) : t.room.Welcomes config := by
  induction hr with
  | refl => exact h
  | act _ ha ih =>
    have hu := Room.upholds_welcomes config
    cases ha with
    | step hst => exact hst.welcomes ih
    | offer task => exact hu.offer ih task
    | teardown id reason => exact ih.teardown id reason
    | drain => exact hu.drain ih
    | handOff ps => exact hu.handOff _ ps ih

theorem welcomes_of_start {h : Host} {fs : FileSystem} (hs : start h config fs = .ok s) :
    s.room.Welcomes config := by
  have ho := obeys_of_start hs
  obtain ⟨-, -, canvas, -, rfl⟩ := start_eq_ok_iff.1 hs
  refine ⟨ho.width, ho.height, rfl, rfl, ?_, nofun⟩
  show (config.staticDir.map _).map Site.root = _
  rw [Option.map_map]
  rfl

theorem room_connect_of_start {h : Host} {fs : FileSystem} (hs : start h config fs = .ok s)
    (peer : String) {socket : Socket} (hw : socket.unwatchable = none) :
    (s.connect peer socket).1.room = { s.room with
      connections := [{ Connection.new 1 peer socket config.recvBuffer config.outboxLimit with
        listed := true }] } := by
  obtain ⟨hc, -, canvas, -, rfl⟩ := start_eq_ok_iff.1 hs
  obtain ⟨-, -, -, hclients, -⟩ := Config.check_eq_ok_iff.1 hc
  let room : Room := .new canvas config.maxClients config.recvBuffer config.outboxLimit
    (config.staticDir.map fun dir => ⟨Bytes.ofString dir, fs⟩)
  let lanes : Lanes := .start config.workers config.queueCapacity
  obtain ⟨lanes', hl⟩ : ∃ lanes', lanes.submit (.connect 1 peer socket) = .ok lanes' :=
    Lanes.exists_submit_start _ _ _
  obtain ⟨rest, -, hall⟩ := Service.workAll_of_submit room (Lanes.isIdle_start _ _) hl
  have hp : (Service.mk room lanes).perform (.connect 1 peer socket) =
      (⟨(room.perform (.connect 1 peer socket)).1, rest⟩,
        (room.perform (.connect 1 peer socket)).2) := by
    rw [Service.perform, Service.offer, Service.submit, hl]
    exact hall
  have ha : (room.accept 1 peer socket).1 = { room with
      connections := [{ Connection.new 1 peer socket config.recvBuffer config.outboxLimit with
        listed := true }] } := by
    exact Room.accept_of_lt (r := room) (Nat.pos_of_ne_zero hclients) hw 1 peer
  exact (congrArg (fun r => r.1.room) hp).trans ha

/-- Settings never keep a client out. The limit of the outboxes is computed without leaving the
word. Whatever a server that was started has done, its canvas has the size of the settings; and
whenever a request to upgrade is complete, the answer and the picture are queued and the connection
is active, unless its socket fails. What others paint meanwhile does not matter. -/
theorem clients_join (config : Config) :
    config.limitInWords = .ok config.outboxLimit ∧
    (config.maxOutbox ≤ maxWord64 → config.outboxLimit ≤ maxWord64) ∧
    ∀ (h : Host) (fs : FileSystem) (server s : Server), start h config fs = .ok server →
      Acts server s →
      s.canvas.width = config.width ∧ s.canvas.height = config.height ∧
      ∀ id c bytes response n, s.room.member? id = some c → c.phase = .handshaking →
        c.inbox.staged.length + bytes.length ≤ c.inbox.capacity →
        Handshake.process (c.inbox.staged ++ bytes) = .ok (.upgraded response n) →
          (∀ canvas, s.canvas.SameSize canvas → c.Joins canvas s.room.site bytes response n) ∧
          (c.socket.Lasts → .upgraded id ∈ (s.room.receive id bytes).2 ∧
            ((c.inbox.staged ++ bytes).length = n →
              ∃ d, (s.room.receive id bytes).1.member? id = some d ∧ d.phase = .active ∧
                d.given = c.given ++
                  (response ++ Frame.encode .binary s.canvas.snapshot.encode))) := by
  refine ⟨config.limitInWords_eq, config.outboxLimit_le, ?_⟩
  intro h fs server s hs hr
  have hw := hr.welcomes (welcomes_of_start hs)
  refine ⟨hw.width, hw.height, ?_⟩
  intro id c bytes response n hm hp hcap hreq
  have hj : ∀ canvas, s.canvas.SameSize canvas → c.Joins canvas s.room.site bytes response n :=
    fun canvas hz => hw.joins (Room.mem_of_member? hm).1 hz hp hcap hreq
  exact ⟨hj, Room.receive_of_joins hm (hj _ (.refl _))⟩

/-- The smallest limit that there is, and a socket that takes nothing. -/
theorem clients_join_full_socket : ∃ (config : Config) (server s : Server) (c d : Connection)
    (request response : Bytes), config.check = .ok () ∧ config.maxOutbox = 0 ∧
      start .unprivileged config .empty = .ok server ∧ Acts server s ∧
      s.room.member? 1 = some c ∧ c.phase = .handshaking ∧ c.socket.standing = .full ∧
      (s.room.receive 1 request).1.member? 1 = some d ∧ d.phase = .active ∧
      d.given = response ++ Frame.encode .binary s.canvas.snapshot.encode := by
  let config : Config := { Config.standard with width := 2, height := 1, maxOutbox := 0 }
  let socket : Socket := ⟨[], .full, [], false, none⟩
  let c : Connection := { Connection.new 1 "peer" socket config.recvBuffer config.outboxLimit with
    listed := true }
  obtain ⟨server, hs⟩ : ∃ server, start .unprivileged config .empty = .ok server := ⟨_, rfl⟩
  have hm : (server.connect "peer" socket).1.room.member? 1 = some c := by
    rw [room_connect_of_start hs "peer" (show socket.unwatchable = none from rfl)]
    rfl
  obtain ⟨request, ⟨response, hr⟩, hlen⟩ : ∃ request, Handshake.IsUpgrade request ∧
      request.length ≤ config.recvBuffer :=
    ⟨_, Handshake.isUpgrade_upgradeRequest, by decide +kernel⟩
  have ha : Acts server (server.connect "peer" socket).1 := .of_run (server.run_connect "peer" rfl)
  obtain ⟨-, -, hjoin⟩ := (clients_join config).2.2 .unprivileged .empty server _ hs ha
  have hfits : c.inbox.staged.length + request.length ≤ c.inbox.capacity := by
    rw [show c.inbox.staged.length = 0 from rfl, Nat.zero_add]
    exact hlen
  obtain ⟨d, hd, hp, hg⟩ := ((hjoin 1 c request response _ hm rfl hfits hr).2
    ⟨rfl, nofun, nofun⟩).2 rfl
  exact ⟨config, server, _, c, d, request, response, rfl, rfl, hs, ha, hm, rfl, rfl, hd, hp, hg⟩

end Server
end SharedCanvas
