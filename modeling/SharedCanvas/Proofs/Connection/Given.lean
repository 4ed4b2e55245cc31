import SharedCanvas.Connection.Membership

namespace SharedCanvas

namespace Socket

/-- The socket takes all that it is offered. -/
structure IsReady (s : Socket) : Prop where
  script : s.script = []
  standing : s.standing = .ready
  shut : s.shut = false

theorem received_of_took {s s' : Socket} {bytes : Bytes} {n : Nat}
    (h : s.write bytes = (.took n, s')) :
    n ≤ bytes.length ∧ s'.received = s.received ++ bytes.take n := by
  unfold write at h
  split at h
  · simp at h
  · split at h
    · rename_i m _ _
      simp only [Prod.mk.injEq, Written.took.injEq] at h
      obtain ⟨rfl, rfl⟩ := h
      refine ⟨Nat.min_le_right _ _, ?_⟩
      rw [List.take_eq_take_min]
    · rename_i hw _
      simp only [Prod.mk.injEq] at h
      exact absurd h.1 (hw n)
    · split at h
      · simp only [Prod.mk.injEq, Written.took.injEq] at h
        obtain ⟨rfl, rfl⟩ := h
        exact ⟨Nat.le_refl _, by rw [List.take_length]⟩
      · simp at h
      · simp at h

theorem received_of_not_took {s s' : Socket} {bytes : Bytes} {w : Written}
    (h : s.write bytes = (w, s')) (hw : ∀ n, w ≠ .took n) : s'.received = s.received := by
  unfold write at h
  split at h
  · simp only [Prod.mk.injEq] at h
    rw [← h.2]
  · split at h
    · simp only [Prod.mk.injEq] at h
      exact absurd h.1.symm (hw _)
    · simp only [Prod.mk.injEq] at h
      rw [← h.2]
    · split at h
      · simp only [Prod.mk.injEq] at h
        exact absurd h.1.symm (hw _)
      · simp only [Prod.mk.injEq] at h
        rw [← h.2]
      · simp only [Prod.mk.injEq] at h
        rw [← h.2]

theorem IsReady.write_eq {s : Socket} (h : s.IsReady) (bytes : Bytes) :
    s.write bytes = (.took bytes.length, { s with received := s.received ++ bytes }) := by
  simp [write, h.shut, h.script, h.standing]

end Socket

namespace Outbox

theorem received_writeFrames (frames : List Bytes) (s : Socket) :
    (writeFrames frames s).2.1.received ++ (writeFrames frames s).1.flatten =
      s.received ++ frames.flatten := by
  -- A write fails, finds the socket full or closed, or takes a frame in part or as a whole.
  fun_induction writeFrames frames s with
  | case1 s => rfl
  | case2 s frame rest fault s' hw =>
    rw [Socket.received_of_not_took hw (by simp)]
  | case3 s frame rest s' hw =>
    rw [Socket.received_of_not_took hw (by simp)]
  | case4 s frame rest s' hw ih =>
    rw [ih, Socket.received_of_not_took hw (by simp)]
  | case5 s frame rest s' hw =>
    rw [(Socket.received_of_took hw).2, List.take_zero, List.append_nil]
  | case6 s frame rest n s' hw _ _ ih =>
    rw [ih, (Socket.received_of_took hw).2, List.flatten_cons, List.flatten_cons,
      List.append_assoc, ← List.append_assoc (List.take n frame), List.take_append_drop]
  | case7 s frame rest n s' hw _ hn ih =>
    obtain ⟨_, hr⟩ := Socket.received_of_took hw
    rw [ih, hr, List.take_of_length_le (Nat.le_of_not_lt hn), List.flatten_cons, List.append_assoc]

theorem ne_nil_of_mem_writeFrames {frames : List Bytes} {s : Socket}
    (h : ∀ frame ∈ frames, frame ≠ []) : ∀ frame ∈ (writeFrames frames s).1, frame ≠ [] := by
  fun_induction writeFrames frames s with
  | case1 s => exact h
  | case2 s frame rest fault s' hw => exact h
  | case3 s frame rest s' hw => exact h
  | case4 s frame rest s' hw ih => exact ih h
  | case5 s frame rest s' hw => exact h
  | case6 s frame rest n s' hw _ hn ih =>
    -- A frame that was taken in part is not taken as a whole.
    refine ih (List.forall_mem_cons.2 ⟨?_, (List.forall_mem_cons.1 h).2⟩)
    intro hd
    have := List.drop_eq_nil_iff.1 hd
    omega
  | case7 s frame rest n s' hw _ _ ih => exact ih (List.forall_mem_cons.1 h).2

theorem length_writeFrames_le (frames : List Bytes) (s : Socket) :
    (writeFrames frames s).1.flatten.length ≤ frames.flatten.length := by
  fun_induction writeFrames frames s with
  | case1 s => exact Nat.le_refl _
  | case2 s frame rest fault s' hw => exact Nat.le_refl _
  | case3 s frame rest s' hw => exact Nat.le_refl _
  | case4 s frame rest s' hw ih => exact ih
  | case5 s frame rest s' hw => exact Nat.le_refl _
  | case6 s frame rest n s' hw _ _ ih =>
    refine Nat.le_trans ih ?_
    rw [List.flatten_cons, List.flatten_cons, List.length_append, List.length_append,
      List.length_drop]
    omega
  | case7 s frame rest n s' hw _ _ ih =>
    refine Nat.le_trans ih ?_
    rw [List.flatten_cons, List.length_append]
    omega

theorem writeFrames_of_isReady {frames : List Bytes} {s : Socket} (h : s.IsReady)
    (hf : ∀ frame ∈ frames, frame ≠ []) : writeFrames frames s =
      ([], { s with received := s.received ++ frames.flatten }, none) := by
  induction frames generalizing s with
  | nil => rw [writeFrames, List.flatten_nil, List.append_nil]
  | cons frame rest ih =>
    have hl : frame.length ≠ 0 := fun hz =>
      hf frame List.mem_cons_self (List.eq_nil_of_length_eq_zero hz)
    have hr : Socket.IsReady { s with received := s.received ++ frame } :=
      ⟨h.script, h.standing, h.shut⟩
    have hrest := ih hr fun f hm => hf f (List.mem_cons_of_mem _ hm)
    have hw := h.write_eq frame
    rw [writeFrames]
    split
    · simp_all
    · simp_all
    · simp_all
    · rename_i n s' hw'
      rw [hw, Prod.mk.injEq, Written.took.injEq] at hw'
      obtain ⟨rfl, rfl⟩ := hw'
      rw [if_neg hl, if_neg (Nat.lt_irrefl _), hrest, List.flatten_cons, List.append_assoc]

end Outbox

namespace Connection

/-- All that was queued for the peer: what it has received, and what still waits. -/
def given (c : Connection) : Bytes := c.socket.received ++ c.outbox.frames.flatten

variable {c d : Connection} {bytes : Bytes}

theorem given_write (c : Connection) : c.write.1.given = c.given :=
  Outbox.received_writeFrames c.outbox.frames c.socket

/-- What a send does: nothing, refuse the bytes, or write them behind what waits. -/
theorem send_cases (c : Connection) (bytes : Bytes) :
    (bytes = [] ∨ c.phase.isLeaving = true) ∧ c.send bytes = (c, none) ∨
    c.outbox.limit < c.outbox.queued + bytes.length ∧ c.send bytes =
      (c, some (.slowConsumer (c.outbox.queued + bytes.length) c.outbox.limit)) ∨
    c.send bytes =
      { c with outbox := { c.outbox with frames := c.outbox.frames ++ [bytes] } }.write := by
  unfold send
  split
  · rename_i h
    rw [Bool.or_eq_true, List.isEmpty_iff] at h
    exact .inl ⟨h, rfl⟩
  · dsimp only
    split
    · exact .inr (.inl ⟨‹_›, rfl⟩)
    · exact .inr (.inr rfl)

theorem send_keeps (c : Connection) (bytes : Bytes) : (c.send bytes).1.id = c.id ∧
    (c.send bytes).1.listed = c.listed ∧ (c.send bytes).1.phase = c.phase ∧
      (c.send bytes).1.inbox = c.inbox ∧ (c.send bytes).1.outbox.limit = c.outbox.limit := by
  rcases c.send_cases bytes with ⟨_, h⟩ | ⟨_, h⟩ | h
  all_goals rw [h]; exact ⟨rfl, rfl, rfl, rfl, rfl⟩

def IsFilled (c : Connection) : Prop := ∀ frame ∈ c.outbox.frames, frame ≠ []

theorem IsFilled.queued_pos (h : c.IsFilled) (hf : c.outbox.frames ≠ []) : 0 < c.outbox.queued := by
  obtain ⟨frame, rest, hc⟩ := List.exists_cons_of_ne_nil hf
  have hn := List.length_pos_iff.2 (h frame (by rw [hc]; exact List.mem_cons_self))
  rw [Outbox.queued, hc, List.flatten_cons, List.length_append]
  omega

theorem IsFilled.write (h : c.IsFilled) : c.write.1.IsFilled := Outbox.ne_nil_of_mem_writeFrames h

theorem IsFilled.send (h : c.IsFilled) (bytes : Bytes) : (c.send bytes).1.IsFilled := by
  by_cases hb : bytes = []
  · rw [hb]
    exact h
  · rcases c.send_cases bytes with ⟨-, hs⟩ | ⟨-, hs⟩ | hs
    · rwa [hs]
    · rwa [hs]
    · rw [hs]
      refine IsFilled.write ?_
      intro frame hf
      rcases List.mem_append.1 hf with hf | hf
      · exact h frame hf
      · rwa [List.mem_singleton.1 hf]

theorem given_send (h : c.send bytes = (d, none)) (hp : c.phase.isLeaving = false) :
    d.given = c.given ++ bytes := by
  rcases c.send_cases bytes with ⟨he, hs⟩ | ⟨_, hs⟩ | hs
  · rw [hp] at he
    rw [hs, Prod.mk.injEq] at h
    rw [← h.1, he.resolve_right Bool.false_ne_true, List.append_nil]
  · rw [hs] at h
    simp at h
  · have hd : d = (c.send bytes).1 := by rw [h]
    rw [hd, hs, given_write]
    simp [given]

theorem send_of_isReady (hs : c.socket.IsReady) (ho : c.outbox.frames = [])
    (hp : c.phase.isLeaving = false) (hb : bytes ≠ []) (hl : bytes.length ≤ c.outbox.limit) :
    c.send bytes =
      ({ c with socket := { c.socket with received := c.socket.received ++ bytes } }, none) := by
  have hq : c.outbox.queued = 0 := by simp [Outbox.queued, ho]
  rcases c.send_cases bytes with ⟨he, _⟩ | ⟨hlt, _⟩ | h
  · rw [hp] at he
    exact absurd (he.resolve_right Bool.false_ne_true) hb
  · omega
  · have hf : ∀ frame ∈ [bytes], frame ≠ [] := by simpa using hb
    have hw := Outbox.writeFrames_of_isReady hs hf
    rw [h, write, Outbox.flush, ho, List.nil_append, hw, List.flatten_singleton]
    simp [← ho]

theorem send_of_lt (hp : c.phase.isLeaving = false) (ho : c.outbox.frames = [])
    (hl : c.outbox.limit < bytes.length) :
    c.send bytes = (c, some (.slowConsumer bytes.length c.outbox.limit)) := by
  have hq : c.outbox.queued = 0 := by simp [Outbox.queued, ho]
  have hb : bytes.isEmpty = false := by
    rw [← Bool.not_eq_true, List.isEmpty_iff]
    rintro rfl
    simp at hl
  simp [send, hb, hp, hq, hl]

theorem advance_eq (c : Connection) (next : Phase) :
    ∃ phase, c.advance next = { c with phase } := by
  unfold advance
  split
  · exact ⟨next, rfl⟩
  · exact ⟨c.phase, rfl⟩

theorem phase_release (c : Connection) : c.release.phase = .closed := by
  cases hp : c.phase <;> simp [release, advance, hp, Phase.rank]

theorem id_release (c : Connection) : c.release.id = c.id := by
  obtain ⟨phase, hp⟩ := c.advance_eq .closed
  rw [release, hp]

theorem given_release (c : Connection) : c.release.given = c.given := by
  obtain ⟨phase, h⟩ := c.advance_eq .closed
  rw [release, h]
  rfl

theorem teardown_of_listed (hl : c.listed = true) (reason : Reason) :
    c.teardown reason = (c.release, true, [.closed c.id c.peer reason]) := if_pos hl

theorem drop_of_listed (hl : c.listed = true) (e : SessionError) :
    c.drop e = (c.release, [.closed c.id c.peer (.error e)]) := by
  rw [drop, teardown_of_listed hl]

theorem id_teardown (c : Connection) (reason : Reason) : (c.teardown reason).1.id = c.id := by
  unfold teardown
  split
  · exact c.id_release
  · rfl

theorem id_post (c : Connection) (bytes : Bytes) : (c.post bytes).1.id = c.id := by
  have hk := (c.send_keeps bytes).1
  unfold post
  split
  · rename_i d hs
    rwa [hs] at hk
  · rename_i d e hs
    rw [hs] at hk
    exact (id_teardown d (.error e)).trans hk

/-- Whoever is ready gets all of the bytes, or the connection ends and it gets none of them. -/
theorem post_of_isReady (hs : c.socket.IsReady) (ho : c.outbox.frames = []) (hl : c.listed = true)
    (hp : c.phase.isLeaving = false) (hb : bytes ≠ []) : (c.post bytes).1 =
      if bytes.length ≤ c.outbox.limit then
        { c with socket := { c.socket with received := c.socket.received ++ bytes } }
      else c.release := by
  split
  · rename_i hle
    rw [post, send_of_isReady hs ho hp hb hle]
  · rename_i hlt
    rw [post, send_of_lt hp ho (Nat.lt_of_not_le hlt)]
    dsimp only
    rw [drop_of_listed hl]

/-- What an operation that queues `bytes` leaves of a connection. -/
structure Queues (c : Connection) (bytes : Bytes) (d : Connection) : Prop where
  id : d.id = c.id
  listed : d.listed = true → c.listed = true
  active : d.phase = .active → d.listed = c.listed ∧ d.given = c.given ++ bytes

theorem Queues.nil (c : Connection) : c.Queues [] c :=
  ⟨rfl, fun h => h, fun _ => ⟨rfl, (List.append_nil _).symm⟩⟩

theorem phase_release_ne_active (c : Connection) : c.release.phase ≠ .active := by
  rw [phase_release]
  decide

theorem queues_release (hi : d.id = c.id) (hc : c.listed = true) (bytes : Bytes) :
    c.Queues bytes d.release :=
  ⟨d.id_release.trans hi, fun _ => hc, fun ha => absurd ha d.phase_release_ne_active⟩

theorem queues_drop (hl : d.listed = true) (hi : d.id = c.id) (hc : c.listed = true)
    (bytes : Bytes) (e : SessionError) : c.Queues bytes (d.drop e).1 := by
  rw [drop_of_listed hl]
  exact queues_release hi hc bytes

theorem queues_teardown (c : Connection) (reason : Reason) :
    c.Queues [] (c.teardown reason).1 := by
  unfold teardown
  split
  · rename_i hl
    exact queues_release rfl hl []
  · exact .nil c

theorem queues_post (hl : c.listed = true) (hp : c.phase.isLeaving = false) (bytes : Bytes) :
    c.Queues bytes (c.post bytes).1 := by
  have hk := c.send_keeps bytes
  unfold post
  split
  · rename_i d hs
    rw [hs] at hk
    exact ⟨hk.1, fun _ => hl, fun _ => ⟨hk.2.1, given_send hs hp⟩⟩
  · rename_i d e hs
    rw [hs] at hk
    exact queues_drop (hk.2.1.trans hl) hk.1 hl bytes e

theorem active_of_active_post (h : (c.post bytes).1.phase = .active) : c.phase = .active := by
  have hk := c.send_keeps bytes
  unfold post at h
  split at h
  · rename_i d hs
    rw [hs] at hk
    exact hk.2.2.1 ▸ h
  · rename_i d e hs
    rw [hs] at hk
    change (d.teardown (.error e)).1.phase = .active at h
    unfold teardown at h
    split at h
    · exact absurd h d.phase_release_ne_active
    · exact hk.2.2.1 ▸ h

end Connection
end SharedCanvas
