import SharedCanvas.Proofs.Broadcast.Orderly
import SharedCanvas.Proofs.Session.Visit

namespace SharedCanvas
open Session

namespace Event

def closing? (id : Nat) : Event → Option Reason
  | .closed id' _ reason => if id' = id then some reason else none
  | _ => none

def isOverrun : Event → Bool
  | .failed _ e => e.isOverrun
  | _ => false

end Event

namespace Connection

/-- How far the connection has come: from its state, or from what was last reported of its end. -/
def progress? (c : Connection) (events : List Event) : Option Progress :=
  if c.listed then
    match c.phase with
    | .handshaking => some (.greeting c.inbox.staged)
    | .active => some (.reading c.inbox.staged c.inbox.assembler)
    | _ => none
  else if c.phase = .closed ∧ c.socket.shut = true then
    (events.filterMap (Event.closing? c.id)).getLast?.map .over
  else none

/-- Nothing has come yet, and nothing was sent. -/
structure IsFresh (c : Connection) : Prop where
  phase : c.phase = .handshaking
  inbox : c.inbox = .new c.inbox.capacity
  idle : c.IsIdle
  received : c.socket.received = []

end Connection

namespace Room

def receiveAll (r : Room) (id : Nat) : List Bytes → Room × List Event
  | [] => (r, [])
  | chunk :: chunks =>
    let (r, events) := r.receive id chunk
    let (r, more) := r.receiveAll id chunks
    (r, events ++ more)

/-- The canvas, what the peer was sent, and how far the connection has come. -/
def outcome? (r : Room) (id : Nat) (events : List Event) : Option Outcome :=
  (r.connection? id).bind fun c =>
    (c.progress? events).map fun progress => ⟨r.canvas, c.socket.received, progress⟩

/-- The connection has come as far as `o` says. -/
structure Stands (r : Room) (id capacity : Nat) (events : List Event) (o : Outcome) : Prop where
  canvas : r.canvas = o.canvas
  connection : ∃ c, r.connection? id = some c ∧ c.socket.received = o.received ∧
    (c.listed = true ∧ c.IsIdle ∧ c.Awaits capacity o.progress ∨
      c.listed = false ∧ c.phase = .closed ∧ c.socket.shut = true ∧ ∃ reason,
        o.progress = .over reason ∧
          (events.filterMap (Event.closing? id)).getLast? = some reason)

variable {r : Room} {c d : Connection} {id capacity : Nat} {events : List Event} {o : Outcome}

theorem Stands.outcome?_eq (h : r.Stands id capacity events o) : r.outcome? id events = some o := by
  obtain ⟨hcanvas, c, hc, hr, hp⟩ := h
  have hprog : c.progress? events = some o.progress := by
    rcases hp with ⟨hl, -, ha⟩ | ⟨hl, hph, hs, reason, ho, he⟩
    · rw [Connection.progress?, if_pos hl]
      rcases ho : o.progress with staged | ⟨staged, a⟩ | reason
      · rw [ho] at ha
        rw [ha.1, ha.2.1]
      · rw [ho] at ha
        rw [ha.1, ha.2.1, ha.2.2]
      · rw [ho] at ha
        exact ha.elim
    · rw [Connection.progress?, hl, if_neg Bool.false_ne_true, if_pos ⟨hph, hs⟩,
        (mem_of_connection? hc).2, he, ho]
      rfl
  rw [outcome?, hc, Option.bind_some, hprog, hcanvas, hr]
  rfl

theorem settle_fail (hl : c.listed = true) (e : SessionError) : settle c (some (.fail e)) =
    (c.release, [.failed c.release.id e, .closed c.id c.peer (.error e)]) := by
  rw [settle, Connection.drop_of_listed hl]

theorem settle_leave (hl : c.listed = true) : ∃ phase : Phase, phase.isLeaving = true ∧
    settle c (some .leave) =
      if c.outbox.frames = [] then
        (Connection.release { c with phase }, [.closed c.id c.peer .flushed])
      else ({ c with phase }, [.unsent c.id c.outbox.queued]) := by
  have ha : (c.advance .closing).phase.isLeaving = true := by
    unfold Connection.advance
    cases hp : c.phase <;> simp [Phase.rank, Phase.isLeaving, hp]
  obtain ⟨phase, hadv⟩ := c.advance_eq .closing
  rw [hadv] at ha
  refine ⟨phase, ha, ?_⟩
  rw [settle, Connection.finish, Connection.closeAfterFlush, hadv]
  cases hf : c.outbox.frames with
  | nil => simp [Connection.teardown_of_listed, hl]
  | cons frame rest => simp

theorem settle_halt (hl : c.listed = true) (ho : c.outbox.frames = []) (halt : Halt) :
    (settle c (some halt)).1.id = c.id ∧ (settle c (some halt)).1.listed = false ∧
      (settle c (some halt)).1.phase = .closed ∧ (settle c (some halt)).1.socket.shut = true ∧
      (settle c (some halt)).1.socket.received = c.socket.received ∧
      (settle c (some halt)).2.filterMap (Event.closing? c.id) = [halt.reason] := by
  cases halt with
  | leave =>
    obtain ⟨phase, -, hs⟩ := settle_leave hl
    rw [hs, if_pos ho]
    refine ⟨Connection.id_release _, rfl, Connection.phase_release _, rfl, rfl, ?_⟩
    simp [Event.closing?, Halt.reason]
  | fail e =>
    rw [settle_fail hl]
    refine ⟨Connection.id_release _, rfl, Connection.phase_release _, rfl, rfl, ?_⟩
    simp [List.filterMap_cons, Event.closing?, Halt.reason]

theorem settle_overruns {halt : Option Halt} (h : Visit.Overruns halt) :
    ∃ e ∈ (settle c halt).2, e.isOverrun = true := by
  obtain ⟨halt, rfl, ho⟩ := h
  cases halt with
  | leave => simp [Halt.isOverrun] at ho
  | fail e => exact ⟨.failed (c.drop e).1.id e, List.mem_cons_self, ho⟩

theorem site_receive (r : Room) (id : Nat) (bytes : Bytes) :
    (r.receive id bytes).1.site = r.site := by
  unfold receive
  split <;> rfl

theorem receive_of_member (hm : r.member? id = some c) (bytes : Bytes) :
    r.receive id bytes =
      (({ r with canvas := ((Visit.mk r.canvas c #[]).receive r.site bytes).1.canvas }).put
          (settle ((Visit.mk r.canvas c #[]).receive r.site bytes).1.conn
            ((Visit.mk r.canvas c #[]).receive r.site bytes).2).1,
        ((Visit.mk r.canvas c #[]).receive r.site bytes).1.events.toList ++
          (settle ((Visit.mk r.canvas c #[]).receive r.site bytes).1.conn
            ((Visit.mk r.canvas c #[]).receive r.site bytes).2).2) := by
  rw [receive, hm]

/-- One chunk takes the connection as far as the reference goes with it. -/
theorem Stands.receive {canvas : Canvas} {bs : Bytes}
    (h : r.Stands id capacity events (reference r.site canvas capacity bs)) (more : Bytes)
    (hl : ∀ e ∈ (r.receive id more).2, e.isOverrun = false) :
    (r.receive id more).1.Stands id capacity (events ++ (r.receive id more).2)
      (reference r.site canvas capacity (bs ++ more)) := by
  obtain ⟨hcanvas, c, hc, hr, ⟨hlist, hidle, hawait⟩ | ⟨hlist, hph, hs, reason, ho, he⟩⟩ := h
  · have hm : r.member? id = some c := by rw [member?, hc, Option.filter_some, if_pos hlist]
    have hi := (mem_of_connection? hc).2
    have hv := Visit.receive_comes (v := ⟨r.canvas, c, #[]⟩) hcanvas hidle hr hawait more
    rw [receive_of_member hm] at hl ⊢
    generalize (Visit.mk r.canvas c #[]).receive r.site more = result at hv hl
    obtain ⟨v, halt⟩ := result
    rcases hv with hover | ⟨h1, h2, h3, h4, h5, h6⟩
    · obtain ⟨e, hmem, ho⟩ := settle_overruns (c := v.conn) hover
      rw [hl e (List.mem_append_right _ hmem)] at ho
      simp at ho
    · rcases h6 with ⟨hawait, rfl⟩ | ⟨reason, ho, hreason⟩
      · refine ⟨h1, v.conn, connection?_put hc (h3.trans hi), h5, .inl ⟨h4.trans hlist, h2, hawait⟩⟩
      · obtain ⟨halt, rfl, hh⟩ := Option.map_eq_some_iff.1 hreason
        obtain ⟨e1, e2, e3, e4, e5, e6⟩ := settle_halt (h4.trans hlist) h2.outbox halt
        refine ⟨h1, _, connection?_put hc (e1.trans (h3.trans hi)), e5.trans h5,
          .inr ⟨e2, e3, e4, reason, ho, ?_⟩⟩
        have hid : v.conn.id = id := h3.trans hi
        rw [hid] at e6
        dsimp only
        rw [List.filterMap_append, List.filterMap_append, e6, hh, ← List.append_assoc,
          List.getLast?_concat]
  · -- A connection that is over takes nothing in.
    have hm : r.member? id = none := by
      rw [member?, hc, Option.filter_some, hlist]
      rfl
    have hrec : r.receive id more = (r, [.unclaimed id more.length]) := by rw [Room.receive, hm]
    rw [hrec, reference_append_of_over more ho]
    refine ⟨hcanvas, c, hc, hr, .inr ⟨hlist, hph, hs, reason, ho, ?_⟩⟩
    rw [List.filterMap_append]
    exact (congrArg List.getLast? (List.append_nil _)).trans he

theorem Stands.receiveAll {canvas : Canvas} {bs : Bytes}
    (h : r.Stands id capacity events (reference r.site canvas capacity bs)) (chunks : List Bytes)
    (hl : ∀ e ∈ (r.receiveAll id chunks).2, e.isOverrun = false) :
    (r.receiveAll id chunks).1.Stands id capacity (events ++ (r.receiveAll id chunks).2)
      (reference r.site canvas capacity (bs ++ chunks.flatten)) := by
  induction chunks generalizing r events bs with
  | nil =>
    rw [Room.receiveAll, List.append_nil, List.flatten_nil, List.append_nil]
    exact h
  | cons chunk chunks ih =>
    have hl' : ∀ e ∈ (r.receive id chunk).2 ++ ((r.receive id chunk).1.receiveAll id chunks).2,
      e.isOverrun = false := hl
    have h1 := h.receive chunk fun e he => hl' e (List.mem_append_left _ he)
    rw [← site_receive r id chunk] at h1
    have h2 := ih h1 fun e he => hl' e (List.mem_append_right _ he)
    rw [site_receive, List.append_assoc, List.append_assoc] at h2
    exact h2

/-- However the bytes of a new connection are cut, what comes of them is what the reference says of
all of them, unless a limit is exceeded on the way. -/
theorem outcome?_receiveAll (hm : r.member? id = some c) (hf : c.IsFresh) (chunks : List Bytes)
    (hl : ∀ e ∈ (r.receiveAll id chunks).2, e.isOverrun = false) :
    (r.receiveAll id chunks).1.outcome? id (r.receiveAll id chunks).2 =
      some (reference r.site r.canvas c.inbox.capacity chunks.flatten) := by
  rw [member?, Option.filter_eq_some_iff] at hm
  -- Of no bytes at all the reference says what a fresh connection is.
  have h0 : reference r.site r.canvas c.inbox.capacity [] = ⟨r.canvas, [], .greeting []⟩ := rfl
  have hs : r.Stands id c.inbox.capacity []
      (reference r.site r.canvas c.inbox.capacity []) := by
    rw [h0]
    refine ⟨rfl, c, hm.1, hf.received, .inl ⟨hm.2, hf.idle, hf.phase, ?_, ?_⟩⟩
    · rw [hf.inbox]
      rfl
    · rw [hf.inbox]
      rfl
  exact (hs.receiveAll chunks hl).outcome?_eq

/-- A client is upgraded, and the frame with which it paints a cell comes in two pieces. -/
theorem outcome?_receiveAll_two_chunks : ∃ (r : Room) (c : Connection) (chunk rest : Bytes),
    r.member? 1 = some c ∧ c.IsFresh ∧ r.canvas.cells = #[29, 29] ∧
      (∀ e ∈ (r.receiveAll 1 [chunk, rest]).2, e.isOverrun = false) ∧
      (r.receiveAll 1 [chunk, rest]).1.outcome? 1 (r.receiveAll 1 [chunk, rest]).2 =
        some (reference r.site r.canvas c.inbox.capacity (chunk ++ rest)) ∧
      (reference r.site r.canvas c.inbox.capacity (chunk ++ rest)).canvas.cells = #[29, 5] := by
  let canvas : Canvas := ⟨2, 1, .replicate 2 Palette.white, .replicate 2 none, 0, rfl, rfl,
    fun _ hc => (Array.mem_replicate.1 hc).2 ▸ Palette.has_white, by decide⟩
  let c : Connection := { Connection.new 1 "peer" .fresh 1024 4096 with listed := true }
  let r : Room := { Room.new canvas 1 1024 4096 none with connections := [c] }
  let frame := Frame.encodeMasked .binary (Pixel.record ⟨1, 0, 5⟩) ⟨1, 2, 3, 4⟩
  let chunk := Handshake.upgradeRequest "h" "/" "k" ++ frame.take 4
  have hf : c.IsFresh := ⟨rfl, rfl, ⟨⟨rfl, rfl, rfl⟩, rfl⟩, rfl⟩
  have hl : ∀ e ∈ (r.receiveAll 1 [chunk, frame.drop 4]).2, e.isOverrun = false := by
    decide +kernel
  refine ⟨r, c, chunk, frame.drop 4, rfl, hf, by decide, hl, outcome?_receiveAll rfl hf _ hl, ?_⟩
  change (reference none canvas 1024 (chunk ++ frame.drop 4)).canvas.cells = _
  decide +kernel

end Room
end SharedCanvas
