import SharedCanvas.Proofs.Connection.Given

namespace SharedCanvas

namespace Outbox

/-- Writes frames, and takes off the count of the bytes that wait what each write took. The count is
an integer, so that too much taken off would show. -/
def writeCounted (frames : List Bytes) (count : Int) (s : Socket) :
    List Bytes × Int × Socket × Option SocketFault :=
  match frames with
  | [] => ([], count, s, none)
  | frame :: rest =>
    match _h : s.write frame with
    | (.failed fault, s') => (frames, count, s', some fault)
    | (.wouldBlock, s') => (frames, count, s', none)
    | (.interrupted, s') => writeCounted (frame :: rest) count s'
    | (.took n, s') =>
      if n = 0 then (frames, count, s', some .writeZero)
      else if n < frame.length then writeCounted (frame.drop n :: rest) (count - n) s'
      else writeCounted rest (count - n) s'
termination_by s.script.length + frames.length
decreasing_by
  all_goals
    rcases Socket.script_write ‹_› with h | ⟨h, hw⟩
    · simp only [List.length_cons]
      omega
    · simp_all

theorem writeCounted_cons (frame : Bytes) (rest : List Bytes) (count : Int) (s : Socket) :
    writeCounted (frame :: rest) count s =
      match s.write frame with
      | (.failed fault, s') => (frame :: rest, count, s', some fault)
      | (.wouldBlock, s') => (frame :: rest, count, s', none)
      | (.interrupted, s') => writeCounted (frame :: rest) count s'
      | (.took n, s') =>
        if n = 0 then (frame :: rest, count, s', some .writeZero)
        else if n < frame.length then writeCounted (frame.drop n :: rest) (count - n) s'
        else writeCounted rest (count - n) s' := by
  rw [writeCounted]
  split <;> rename_i hw <;> rw [hw]

theorem writeCounted_eq (frames : List Bytes) (s : Socket) :
    writeCounted frames frames.flatten.length s =
      ((writeFrames frames s).1, ((writeFrames frames s).1.flatten.length : Int),
        (writeFrames frames s).2) := by
  fun_induction writeFrames frames s with
  | case1 s => rw [writeCounted]
  | case2 s frame rest fault s' hw => rw [writeCounted_cons, hw]
  | case3 s frame rest s' hw => rw [writeCounted_cons, hw]
  | case4 s frame rest s' hw ih =>
    rw [writeCounted_cons, hw]
    exact ih
  | case5 s frame rest s' hw =>
    rw [writeCounted_cons, hw]
    exact if_pos rfl
  | case6 s frame rest n s' hw hz hn ih =>
    have hc : ((frame :: rest).flatten.length : Int) - n =
      (frame.drop n :: rest).flatten.length := by
      rw [List.flatten_cons, List.flatten_cons, List.length_append, List.length_append,
        List.length_drop]
      omega
    rw [writeCounted_cons, hw]
    dsimp only
    rw [if_neg hz, if_pos hn, hc, ih]
  | case7 s frame rest n s' hw hz hn ih =>
    -- No socket takes more than it is offered.
    have hle := (Socket.received_of_took hw).1
    have hc : ((frame :: rest).flatten.length : Int) - n = rest.flatten.length := by
      rw [List.flatten_cons, List.length_append]
      omega
    rw [writeCounted_cons, hw]
    dsimp only
    rw [if_neg hz, if_neg hn, hc, ih]

theorem ne_nil_of_fault {frames : List Bytes} {s : Socket} {fault : SocketFault}
    (h : (writeFrames frames s).2.2 = some fault) : (writeFrames frames s).1 ≠ [] := by
  fun_induction writeFrames frames s with
  | case1 s => simp at h
  | case2 s frame rest fault s' hw => exact List.cons_ne_nil _ _
  | case3 s frame rest s' hw => exact List.cons_ne_nil _ _
  | case4 s frame rest s' hw ih => exact ih h
  | case5 s frame rest s' hw => exact List.cons_ne_nil _ _
  | case6 s frame rest n s' hw _ _ ih => exact ih h
  | case7 s frame rest n s' hw _ _ ih => exact ih h

end Outbox

namespace Connection

/-- What is done to a connection, and what becomes of its socket meanwhile. -/
inductive Operation
  | send (bytes : Bytes)
  | flush
  | closeAfterFlush
  | advance (next : Phase)
  | release
  /-- The answers to the writes that come next, and the standing answer to those after them. -/
  | meet (script : List Written) (standing : Standing)
deriving DecidableEq, Repr

def perform (c : Connection) : Operation → Connection
  | .send bytes => (c.send bytes).1
  | .flush => c.flush.1
  | .closeAfterFlush => c.closeAfterFlush.1
  | .advance next => c.advance next
  | .release => c.release
  | .meet script standing => { c with socket := { c.socket with script, standing } }

def run (c : Connection) (ops : List Operation) : Connection := ops.foldl perform c

def refuses (c : Connection) (bytes : Bytes) : Bool :=
  (c.send bytes).2 matches some (.slowConsumer ..)

/-- What the connection takes to pass on: the payload of a send, unless it is leaving or refuses. A
payload whose write fails is taken all the same. -/
def takes (c : Connection) : Operation → Bytes
  | .send bytes => if c.phase.isLeaving || c.refuses bytes then [] else bytes
  | _ => []

def accepted (c : Connection) : List Operation → List Bytes
  | [] => []
  | op :: ops => c.takes op :: (c.perform op).accepted ops

theorem outbox_advance (c : Connection) (next : Phase) : (c.advance next).outbox = c.outbox := by
  obtain ⟨_, h⟩ := c.advance_eq next
  rw [h]

theorem given_advance (c : Connection) (next : Phase) : (c.advance next).given = c.given := by
  obtain ⟨_, h⟩ := c.advance_eq next
  rw [h]
  rfl

/-- A connection, and beside it the number of bytes that wait, kept by adding and taking off. -/
structure Counted where
  conn : Connection
  count : Int

namespace Counted

def write (k : Counted) : Counted × Option SessionError :=
  let (frames, count, socket, fault) :=
    Outbox.writeCounted k.conn.outbox.frames k.count k.conn.socket
  (⟨{ k.conn with outbox := { k.conn.outbox with frames }, socket }, count⟩, fault.map .socket)

def send (k : Counted) (bytes : Bytes) : Counted × Option SessionError :=
  if bytes.isEmpty || k.conn.phase.isLeaving then (k, none)
  else
    let queued := k.count + bytes.length
    if queued > k.conn.outbox.limit then
      (k, some (.slowConsumer queued.toNat k.conn.outbox.limit))
    else
      write ⟨{ k.conn with
        outbox := { k.conn.outbox with frames := k.conn.outbox.frames ++ [bytes] } }, queued⟩

def flush (k : Counted) : Counted × Except SessionError FlushStatus :=
  match k.write with
  | (k', some e) => (k', .error e)
  | (k', none) =>
    (k', .ok <|
      if !k'.conn.outbox.frames.isEmpty then .pending
      else if k'.conn.phase = .closing then .finished
      else .idle)

def perform (k : Counted) : Operation → Counted
  | .send bytes => (k.send bytes).1
  | .flush => k.flush.1
  | op => { k with conn := k.conn.perform op }

def run (k : Counted) (ops : List Operation) : Counted := ops.foldl perform k

def of (c : Connection) : Counted := ⟨c, c.outbox.frames.flatten.length⟩

theorem write_of (c : Connection) : (of c).write = (of c.write.1, c.write.2) := by
  simp only [write, of, Outbox.writeCounted_eq]
  rfl

theorem send_of (c : Connection) (bytes : Bytes) :
    (of c).send bytes = (of (c.send bytes).1, (c.send bytes).2) := by
  let d : Connection := { c with outbox := { c.outbox with frames := c.outbox.frames ++ [bytes] } }
  have hc : (of c).count + bytes.length = ((c.outbox.queued + bytes.length : Nat) : Int) :=
    (Int.natCast_add ..).symm
  have hd : of d = ⟨d, ((c.outbox.queued + bytes.length : Nat) : Int)⟩ := by
    simp [of, d, Outbox.queued]
  by_cases hb : (bytes.isEmpty || c.phase.isLeaving) = true
  · rw [send, if_pos (show (bytes.isEmpty || (of c).conn.phase.isLeaving) = true from hb),
      Connection.send, if_pos hb]
  · rw [send, if_neg (show ¬ (bytes.isEmpty || (of c).conn.phase.isLeaving) = true from hb),
      Connection.send, if_neg hb, hc]
    by_cases hl : c.outbox.queued + bytes.length > c.outbox.limit
    · rw [if_pos hl]
      exact if_pos (Int.ofNat_lt.2 hl)
    · rw [if_neg hl]
      have hw := write_of d
      rw [hd] at hw
      exact (if_neg (mt Int.ofNat_lt.1 hl)).trans hw

theorem flush_of (c : Connection) : (of c).flush = (of c.flush.1, c.flush.2) := by
  unfold flush Connection.flush
  rw [write_of]
  rcases c.write with ⟨d, _ | e⟩ <;> rfl

theorem perform_of (c : Connection) (op : Operation) : (of c).perform op = of (c.perform op) := by
  -- Where the outbox is left alone, the count is that of before.
  have hk : ∀ d : Connection, d.outbox = c.outbox → { of c with conn := d } = of d := by
    intro d hd
    rw [of, of, hd]
  cases op with
  | send bytes => exact congrArg Prod.fst (send_of c bytes)
  | flush => exact congrArg Prod.fst (flush_of c)
  | closeAfterFlush => exact hk (c.advance .closing) (c.outbox_advance _)
  | advance next => exact hk (c.advance next) (c.outbox_advance _)
  | release => exact hk c.release (c.outbox_advance _)
  | meet script standing => exact hk { c with socket := { c.socket with script, standing } } rfl

theorem run_of (c : Connection) (ops : List Operation) : (of c).run ops = of (c.run ops) :=
  List.foldl_hom of fun c op => perform_of c op

end Counted

variable {c : Connection} {bytes base : Bytes} {limit : Nat}

theorem send_of_isLeaving (h : c.phase.isLeaving = true) (bytes : Bytes) :
    c.send bytes = (c, none) := by
  rw [send, h, Bool.or_true, if_pos rfl]

def queue (c : Connection) (bytes : Bytes) : Connection :=
  { c with outbox := { c.outbox with frames := c.outbox.frames ++ [bytes] } }

theorem send_eq (hb : bytes ≠ []) (hp : c.phase.isLeaving = false) : c.send bytes =
    if c.outbox.limit < c.outbox.queued + bytes.length then
      (c, some (.slowConsumer (c.outbox.queued + bytes.length) c.outbox.limit))
    else (c.queue bytes).write := by
  rw [send, hp, Bool.or_false, List.isEmpty_eq_false_iff.2 hb, if_neg Bool.false_ne_true]
  rfl

/-- A send is refused exactly if it would make more wait than may. -/
theorem send_eq_slowConsumer_iff {n most : Nat} :
    (c.send bytes).2 = some (.slowConsumer n most) ↔ bytes ≠ [] ∧ c.phase.isLeaving = false ∧
      n = c.outbox.queued + bytes.length ∧ most = c.outbox.limit ∧ most < n := by
  by_cases hp : c.phase.isLeaving = true
  · simp [send_of_isLeaving hp, hp]
  rw [Bool.not_eq_true] at hp
  by_cases hb : bytes = []
  · simp [send, hb]
  rw [send_eq hb hp]
  by_cases hl : c.outbox.limit < c.outbox.queued + bytes.length
  · rw [if_pos hl]
    simp only [Option.some.injEq, SessionError.slowConsumer.injEq]
    constructor
    · rintro ⟨rfl, rfl⟩
      exact ⟨hb, hp, rfl, rfl, hl⟩
    · rintro ⟨-, -, rfl, rfl, -⟩
      exact ⟨rfl, rfl⟩
  · rw [if_neg hl]
    constructor
    · intro h
      obtain ⟨_, -, h⟩ := Option.map_eq_some_iff.1 h
      cases h
    · rintro ⟨-, -, rfl, rfl, h⟩
      exact absurd h hl

theorem refuses_iff :
    c.refuses bytes = true ↔ ∃ n most, (c.send bytes).2 = some (.slowConsumer n most) := by
  unfold refuses
  split
  · rename_i n most h
    exact ⟨fun _ => ⟨n, most, h⟩, fun _ => rfl⟩
  · rename_i h
    exact ⟨nofun, fun ⟨n, most, hs⟩ => absurd hs (h n most)⟩

/-- Either a send is left out, or its payload waits behind all others and is written as far as
the socket takes it. -/
theorem send_takes (c : Connection) (bytes : Bytes) :
    c.takes (.send bytes) = [] ∧ (c.send bytes).1 = c ∨
      c.takes (.send bytes) = bytes ∧ bytes ≠ [] ∧
        (c.queue bytes).outbox.queued ≤ c.outbox.limit ∧
        c.send bytes = (c.queue bytes).write := by
  by_cases hp : c.phase.isLeaving = true
  · rw [takes, send_of_isLeaving hp, hp]
    exact .inl ⟨rfl, rfl⟩
  rw [Bool.not_eq_true] at hp
  by_cases hb : bytes = []
  · left
    rw [takes, hb, ite_self, send]
    exact ⟨rfl, rfl⟩
  by_cases hl : c.outbox.limit < c.outbox.queued + bytes.length
  · left
    rw [takes, hp, refuses, send_eq hb hp, if_pos hl]
    exact ⟨rfl, rfl⟩
  · right
    have hs := (send_eq hb hp).trans (if_neg hl)
    have hr : c.refuses bytes = false := by
      rw [← Bool.not_eq_true, refuses_iff]
      rintro ⟨n, most, h⟩
      obtain ⟨-, -, rfl, rfl, hlt⟩ := send_eq_slowConsumer_iff.1 h
      exact hl hlt
    have hq : (c.queue bytes).outbox.queued = c.outbox.queued + bytes.length := by
      simp [queue, Outbox.queued]
    rw [takes, hp, hr]
    exact ⟨rfl, hb, hq ▸ Nat.le_of_not_lt hl, hs⟩

theorem fst_flush (c : Connection) : c.flush.1 = c.write.1 := by
  rw [flush]
  rcases c.write with ⟨d, _ | e⟩ <;> rfl

/-- What is done to a connection takes nothing of what it was given, and adds what is taken. -/
theorem given_perform (c : Connection) (op : Operation) :
    (c.perform op).given = c.given ++ c.takes op := by
  cases op with
  | send bytes =>
    rw [perform]
    rcases c.send_takes bytes with ⟨ht, hs⟩ | ⟨ht, -, -, hs⟩
    · rw [ht, hs, List.append_nil]
    · rw [ht, hs, given_write]
      simp [given, queue]
  | flush =>
    rw [perform, fst_flush, given_write]
    exact (List.append_nil _).symm
  | closeAfterFlush => exact (c.given_advance .closing).trans (List.append_nil _).symm
  | advance next => exact (c.given_advance next).trans (List.append_nil _).symm
  | release => exact c.given_release.trans (List.append_nil _).symm
  | meet script standing => exact (List.append_nil _).symm

theorem given_run (c : Connection) (ops : List Operation) :
    (c.run ops).given = c.given ++ (c.accepted ops).flatten := by
  induction ops generalizing c with
  | nil => exact (List.append_nil _).symm
  | cons op ops ih =>
    rw [accepted, List.flatten_cons, ← List.append_assoc, ← given_perform]
    exact ih (c.perform op)

/-- Nothing empty waits, and no more than may. -/
structure IsWithin (c : Connection) (limit : Nat) : Prop where
  limit_eq : c.outbox.limit = limit
  filled : c.IsFilled
  queued : c.outbox.queued ≤ limit

theorem IsWithin.of_outbox {d : Connection} (h : c.IsWithin limit) (hd : d.outbox = c.outbox) :
    d.IsWithin limit := by
  refine ⟨hd ▸ h.limit_eq, ?_, hd ▸ h.queued⟩
  rw [IsFilled, hd]
  exact h.filled

theorem IsWithin.write (h : c.IsWithin limit) : c.write.1.IsWithin limit :=
  ⟨h.limit_eq, h.filled.write, Nat.le_trans (Outbox.length_writeFrames_le _ _) h.queued⟩

theorem IsWithin.perform (h : c.IsWithin limit) (op : Operation) :
    (c.perform op).IsWithin limit := by
  cases op with
  | send bytes =>
    rw [Connection.perform]
    rcases c.send_takes bytes with ⟨-, hs⟩ | ⟨-, hb, hq, hs⟩
    · rwa [hs]
    · rw [hs]
      refine IsWithin.write ⟨h.limit_eq, ?_, h.limit_eq ▸ hq⟩
      intro frame hf
      rcases List.mem_append.1 hf with hf | hf
      · exact h.filled frame hf
      · rwa [List.mem_singleton.1 hf]
  | flush =>
    rw [Connection.perform, fst_flush]
    exact h.write
  | closeAfterFlush => exact h.of_outbox (c.outbox_advance .closing)
  | advance next => exact h.of_outbox (c.outbox_advance next)
  | release => exact h.of_outbox (c.outbox_advance .closed)
  | meet script standing => exact h.of_outbox rfl

theorem IsWithin.run (h : c.IsWithin limit) (ops : List Operation) :
    (c.run ops).IsWithin limit :=
  List.foldlRecOn (motive := fun c => c.IsWithin limit) ops Connection.perform h
    fun _ hc op _ => IsWithin.perform hc op

theorem flush_eq_finished_iff : c.flush.2 = .ok .finished ↔
    c.phase = .closing ∧ c.write.1.outbox.frames = [] := by
  have hp : c.write.1.phase = c.phase := rfl
  rw [← hp, flush]
  rcases hw : c.write with ⟨d, _ | e⟩
  · dsimp only
    cases hf : d.outbox.frames with
    | nil => by_cases hc : d.phase = .closing <;> simp [hc]
    | cons frame rest => simp
  · -- What could not be written still waits.
    have he : c.write.2 = some e := by rw [hw]
    obtain ⟨fault, hfault, -⟩ := Option.map_eq_some_iff.1 he
    have hn : c.write.1.outbox.frames ≠ [] := Outbox.ne_nil_of_fault hfault
    rw [hw] at hn
    exact ⟨nofun, fun h => absurd h.2 hn⟩

/-- Everything that was accepted has been written or waits behind what was written, in order and no
byte of it twice; the count of what waits is right, within the limit, and of no empty payloads. What
is refused, or comes when the connection is leaving, changes nothing. A flush is the last exactly if
the connection is closing and has written everything. -/
theorem written_append_waiting (id : Nat) (peer : String) (socket : Socket)
    (capacity limit : Nat) (ops : List Operation) :
    let start := new id peer socket capacity limit
    let c := start.run ops
    let accepted := socket.received ++ (start.accepted ops).flatten
    c.socket.received ++ c.outbox.frames.flatten = accepted ∧
    (Counted.mk start 0).run ops = ⟨c, c.outbox.frames.flatten.length⟩ ∧
    (∀ bytes, (Counted.mk c c.outbox.frames.flatten.length).send bytes =
      (⟨(c.send bytes).1, (c.send bytes).1.outbox.frames.flatten.length⟩, (c.send bytes).2)) ∧
    c.outbox.frames.flatten.length ≤ limit ∧
    (∀ frame ∈ c.outbox.frames, frame ≠ []) ∧
    (∀ bytes n most, (c.send bytes).2 = some (.slowConsumer n most) ↔ bytes ≠ [] ∧
      c.phase.isLeaving = false ∧ n = c.outbox.frames.flatten.length + bytes.length ∧
        most = limit ∧ limit < n) ∧
    (∀ bytes, c.refuses bytes = true → (c.send bytes).1 = c) ∧
    (∀ bytes, c.phase.isLeaving = true → c.send bytes = (c, none)) ∧
    (c.flush.2 = .ok .finished ↔ c.phase = .closing ∧ c.flush.1.socket.received = accepted) := by
  intro start c accepted
  have hstart : start.IsWithin limit :=
    ⟨rfl, fun _ hf => absurd hf List.not_mem_nil, Nat.zero_le limit⟩
  have hw : c.IsWithin limit := hstart.run ops
  have hg : c.given = accepted := by
    rw [given_run, given]
    simp [start, new, accepted]
  refine ⟨hg, Counted.run_of start ops, Counted.send_of c, hw.queued, hw.filled, ?_, ?_,
    fun bytes h => send_of_isLeaving h bytes, ?_⟩
  · intro bytes n most
    rw [send_eq_slowConsumer_iff, hw.limit_eq]
    constructor
    · rintro ⟨hb, hp, hn, rfl, hl⟩
      exact ⟨hb, hp, hn, rfl, hl⟩
    · rintro ⟨hb, hp, hn, rfl, hl⟩
      exact ⟨hb, hp, hn, rfl, hl⟩
  · intro bytes h
    obtain ⟨n, most, hs⟩ := refuses_iff.1 h
    obtain ⟨hb, hp, rfl, rfl, hl⟩ := send_eq_slowConsumer_iff.1 hs
    rw [send_eq hb hp, if_pos hl]
  · have hwg : c.flush.1.socket.received ++ c.write.1.outbox.frames.flatten = accepted := by
      rw [fst_flush]
      exact c.given_write.trans hg
    rw [flush_eq_finished_iff]
    refine and_congr_right fun _ => ⟨fun hf => ?_, fun hr => ?_⟩
    · rw [← hwg, hf, List.flatten_nil, List.append_nil]
    · rw [hr, List.append_right_eq_self, List.flatten_eq_nil_iff] at hwg
      exact List.eq_nil_iff_forall_not_mem.2 fun frame hf =>
        hw.filled.write frame hf (hwg frame hf)

/-- The first payload goes in part, and the last comes too late. -/
example : ((new 1 "peer" ⟨[.took 2, .interrupted, .wouldBlock], .full, [], false, none⟩ 8 6).run
    [.send [1, 2, 3], .send [4, 5], .closeAfterFlush, .send [6]]).outbox.frames =
      [[3], [4, 5]] := by
  cbv

end Connection
end SharedCanvas
