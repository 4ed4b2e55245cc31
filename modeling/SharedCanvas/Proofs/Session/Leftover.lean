import SharedCanvas.Proofs.Frame.Assembled
import SharedCanvas.Proofs.Session.Lifecycle

namespace SharedCanvas

/-- What is left of bytes without a fault is the start of a frame. -/
theorem Frame.exists_decode_of_split {bs : Bytes} (h : (split bs).2.2 = none) :
    ∃ n, decode (split bs).2.1 = .ok (.incomplete n) := by
  induction bs using Frame.split.induct with
  | case1 bs e hd =>
    rw [split_of_error hd] at h
    simp at h
  | case2 bs n hd =>
    rw [split_of_incomplete hd]
    exact ⟨n, hd⟩
  | case3 bs frame n hd _ _ _ _ ih =>
    rw [split_of_complete hd] at h ⊢
    exact ih h

namespace Assembler

def Fits (a : Assembler) : Prop := ∀ u, a.unfinished = some u → u.payload.length ≤ a.limit

variable {a b : Assembler} {m : Option Message}

theorem Fits.push {frame : Frame} (ha : a.Fits) (h : a.push frame = .ok (b, m)) :
    b.Fits ∧ b.limit = a.limit := by
  have hb : a.answer frame = (b, .ok m) := by rw [answer, h]
  rcases a.cases_of_frame frame with hp | ⟨e, he⟩ | ⟨u, hu, hl⟩
  · rw [answer_of_not_isPiece hp] at hb
    cases hb
    exact ⟨ha, rfl⟩
  · rw [answer_of_refuses he] at hb
    cases hb
  · rw [answer_of_extends hu hl] at hb
    cases hb
    refine ⟨?_, rfl⟩
    intro v hv
    dsimp only at hv
    split at hv
    · cases hv
    · rw [← Option.some.inj hv]
      exact hl

end Assembler

/-- No more is kept for a connection than its capacity allows. -/
structure Inbox.Fits (i : Inbox) (n : Nat) : Prop where
  capacity : i.capacity = n
  limit : i.assembler.limit = n
  staged : i.staged.length ≤ n
  assembler : i.assembler.Fits

/-- The mark says whether something has come of which the rest has not. -/
def Inbox.IsMarked (i : Inbox) : Prop :=
  i.midUnit = (!i.staged.isEmpty || i.assembler.isPartial)

theorem Inbox.IsMarked.midUnit_iff {i : Inbox} (h : i.IsMarked) :
    i.midUnit = true ↔ i.staged ≠ [] ∨ i.assembler.isPartial = true := by
  rw [h, Bool.or_eq_true, Bool.not_eq_true', ← Bool.not_eq_true, List.isEmpty_iff]

theorem Visit.preserves_fits (capacity : Nat) :
    Visit.Preserves fun c => c.inbox.Fits capacity := by
  refine ⟨⟨?_, ?_, fun _ hc => ⟨hc.capacity, hc.limit, hc.staged, hc.assembler⟩⟩, ?_, ?_, ?_⟩
  · intro c bytes hc
    rw [(c.send_keeps bytes).2.2.2.1]
    exact hc
  · intro c frame a m hc ha
    obtain ⟨hf, hl⟩ := hc.assembler.push ha
    exact ⟨hc.capacity, hl.trans hc.limit, hc.staged, hf⟩
  · intro c hc
    obtain ⟨phase, hp⟩ := c.advance_eq .active
    rw [hp]
    exact hc
  · intro c bytes inbox hc hi
    unfold Inbox.append at hi
    dsimp only at hi
    split at hi
    · simp at hi
    · rename_i hle
      rw [hc.capacity] at hle
      rw [Except.ok.injEq] at hi
      subst hi
      exact ⟨hc.capacity, hc.limit, by simpa using hle, hc.assembler⟩
  · intro c staged hc hs
    exact ⟨hc.capacity, hc.limit, Nat.le_trans hs.length_le hc.staged, hc.assembler⟩

namespace Visit

variable {v w : Visit}

theorem isMarked_takeFrames (h : v.takeFrames = (w, none)) : w.conn.inbox.IsMarked := by
  unfold takeFrames at h
  dsimp only at h
  split at h
  · simp at h
  · simp at h
  · rw [Prod.mk.injEq] at h
    rw [← h.1]
    rfl

/-- A visit that only adds to a request leaves everything staged. -/
theorem isMarked_greet {site : Option Site} (hs : v.conn.inbox.staged ≠ [])
    (h : v.greet site = (w, none)) : w.conn.inbox.IsMarked := by
  unfold greet at h
  split at h
  · simp at h
  · rw [Prod.mk.injEq] at h
    rw [← h.1, Inbox.IsMarked, Visit.setMidUnit]
    simp [hs]
  · exact absurd (congrArg Prod.snd h) (reports_serve _ site _).2
  · split at h
    · simp at h
    · split at h
      · simp at h
      · exact isMarked_takeFrames h

theorem isMarked_receive {site : Option Site} (hp : v.conn.phase.isLeaving = false) {bytes : Bytes}
    (hb : bytes ≠ []) (h : v.receive site bytes = (w, none)) : w.conn.inbox.IsMarked := by
  rcases v.receive_cases site hp bytes with ⟨-, e, hr⟩ | hr
  · rw [h] at hr
    simp at hr
  · rw [h] at hr
    split at hr
    · refine isMarked_greet ?_ hr.symm
      exact List.append_ne_nil_of_right_ne_nil _ hb
    · exact isMarked_takeFrames hr.symm

end Visit

theorem Room.inbox_settle {c : Connection} (hl : c.listed = true) (halt : Option Halt) :
    (settle c halt).1.inbox = c.inbox := by
  rcases halt with _ | _ | e
  · rfl
  · obtain ⟨phase, -, hs⟩ := settle_leave hl
    rw [hs]
    split
    · rw [Connection.release_eq]
    · rfl
  · rw [settle_fail hl, Connection.release_eq]

namespace Connection

variable {canvas : Canvas} {site : Option Site} {shown : List Snapshot} {heard heard' : List Bytes}
  {c d : Connection} {capacity : Nat}

/-- What is kept of the bytes that have come, while they come in chunks that are not empty. -/
structure Tidy (capacity : Nat) (heard : List Bytes) (c : Connection) : Prop where
  fits : c.inbox.Fits capacity
  marked : c.phase.isLeaving = false → [] ∉ heard → c.inbox.IsMarked

theorem Tidy.of_inbox (h : c.Tidy capacity heard) (hi : d.inbox = c.inbox)
    (hp : d.phase.isLeaving = true ∨ d.phase = c.phase) : d.Tidy capacity heard := by
  refine ⟨hi ▸ h.fits, fun hd => ?_⟩
  rcases hp with hp | hp
  · rw [hp] at hd
    simp at hd
  · rw [hi]
    exact h.marked (hp ▸ hd)

theorem tidy_release (h : c.inbox.Fits capacity) : c.release.Tidy capacity heard := by
  rw [release_eq]
  exact ⟨h, nofun⟩

theorem Tidy.visited (h : c.Tidy capacity heard) (hl : c.listed = true) (canvas : Canvas)
    (site : Option Site) (bytes : Bytes) :
    (c.visited canvas site bytes).1.Tidy capacity (heard ++ [bytes]) := by
  cases hp : c.phase.isLeaving with
  | true =>
    rw [visited_of_isLeaving hp]
    exact ⟨h.fits, fun hn => by rw [hp] at hn; simp at hn⟩
  | false =>
    -- What fits is a matter of all parts of a visit, and the mark one of how it ends.
    have hf := (Visit.preserves_fits capacity).receive (v := ⟨canvas, c, #[]⟩) h.fits site bytes
    have hm := (preserves_member c.id c.listed).receive (v := ⟨canvas, c, #[]⟩) ⟨rfl, rfl⟩
      site bytes
    rw [Connection.visited]
    rcases hv : (Visit.mk canvas c #[]).receive site bytes with ⟨v, halt⟩
    rw [hv] at hf hm
    dsimp only at hf hm ⊢
    refine ⟨(Room.inbox_settle (hm.2.trans hl) halt).symm ▸ hf, ?_⟩
    intro hn hb
    rcases (Room.settle_spec (hm.2.trans hl) halt).2 with ⟨rfl, hs⟩ | hs
    · rw [hs]
      refine Visit.isMarked_receive hp ?_ hv
      rintro rfl
      simp at hb
    · rw [hs] at hn
      simp at hn

/-- A move keeps a connection tidy. -/
theorem Tidy.moves (h : c.Tidy capacity heard) (hlives : c.Lives shown heard)
    (hm : c.Moves canvas site heard heard' d) : d.Tidy capacity heard' := by
  cases hm with
  | rest => exact h
  | missed hl bytes =>
    refine ⟨h.fits, fun hn => ?_⟩
    rw [hlives.closed hl] at hn
    cases hn
  | visited hl bytes => exact h.visited hl canvas site bytes
  | released hl => exact tidy_release h.fits
  | writable hl =>
    rcases writable_cases hl with hw | ⟨hw, -⟩
    · rw [hw]
      exact tidy_release h.fits
    · rw [hw]
      exact h.of_inbox rfl (.inr rfl)
  | posted hl ha frame =>
    obtain ⟨-, -, hp, hi, -⟩ := c.send_keeps frame
    rcases post_cases hl frame with hs | hs
    · rw [hs]
      exact h.of_inbox hi (.inr hp)
    · rw [hs]
      exact tidy_release (hi ▸ h.fits)
  | stood standing => exact h.of_inbox rfl (.inr rfl)

end Connection

namespace Gathering

variable {s : Gathering} {c : Connection}

theorem Reachable.tidy (h : Reachable s) (hc : c ∈ s.room.connections) :
    c.Lives s.shown (s.heard c.id) ∧ c.Tidy s.room.recvCapacity (s.heard c.id) := by
  obtain ⟨room, hr, hrun⟩ := h
  obtain ⟨⟨_, _, _, hroom⟩, -, hall⟩ := forall_of_run
    (motive := fun shown heard c => c.Lives shown heard ∧ c.Tidy room.recvCapacity heard) hr hrun
    (fun shown id peer socket hs => ⟨lives_newcomer room shown id peer hs,
      ⟨rfl, rfl, Nat.zero_le _, nofun⟩, fun _ _ => rfl⟩)
    fun h hm => ⟨(h.1.moves hm).1, h.2.moves h.1 hm⟩
  rw [hroom]
  exact hall c hc

/-- Between two tasks no more is kept of what a connection has sent than its capacity allows. What
is staged before the upgrade is the start of a request, and after it the start of a frame. While no
empty chunk comes from the connection, its end is reported to be in the middle of something just if
something is staged or a message is unfinished. -/
theorem incomplete_of_reachable (h : Reachable s) (hc : c ∈ s.room.connections)
    (hl : c.listed = true) :
    c.inbox.staged.length ≤ s.room.recvCapacity ∧
    (∀ u, c.inbox.assembler.unfinished = some u → u.payload.length ≤ s.room.recvCapacity) ∧
    (c.phase = .handshaking → Handshake.process c.inbox.staged = .ok .incomplete) ∧
    (c.phase = .active → ∃ n, Frame.decode c.inbox.staged = .ok (.incomplete n)) ∧
    (c.phase = .handshaking ∨ c.phase = .active → [] ∉ s.heard c.id →
      (c.inbox.midUnit = true ↔ c.inbox.staged ≠ [] ∨ c.inbox.assembler.isPartial = true) ∧
      (s.room.perform (.hangUp c.id)).2 = [.closed c.id c.peer
        (if c.inbox.staged ≠ [] ∨ c.inbox.assembler.isPartial = true then .peerClosedMidMessage
          else .peerClosed)]) := by
  obtain ⟨hlives, hfits, hmarked⟩ := h.tidy hc
  refine ⟨hfits.staged, fun u hu => hfits.limit ▸ hfits.assembler u hu, ?_, ?_, ?_⟩
  · intro hp
    rcases hlives.stages (by rw [hp]; rfl) with ⟨-, hi, hs⟩ | ⟨ha, -⟩
    · rw [hs]
      exact hi
    · exact absurd (hp.symm.trans ha) nofun
  · intro hp
    rcases hlives.stages (by rw [hp]; rfl) with ⟨hh, -⟩ | ⟨-, response, n, -, hsplit, hs⟩
    · exact absurd (hp.symm.trans hh) nofun
    · rw [hs]
      exact Frame.exists_decode_of_split hsplit
  · intro hp hne
    have hgo : c.phase.isLeaving = false := by rcases hp with hp | hp <;> rw [hp] <;> rfl
    have hiff := (hmarked hgo hne).midUnit_iff
    refine ⟨hiff, ?_⟩
    have hm : s.room.member? c.id = some c := by
      rw [Room.member?, h.lives.1.connection?_eq hc, Option.filter_some, if_pos hl]
    rw [Room.perform, Room.hangUp, Room.modify, hm]
    dsimp only
    rw [Connection.teardown_of_listed hl]
    simp only [hiff]

/-- A client has sent three bytes of a request. -/
theorem incomplete_of_reachable_three_bytes : ∃ s, Reachable s ∧ ∃ c ∈ s.room.connections,
    c.listed = true ∧ c.inbox.staged = [0x47, 0x45, 0x54] ∧ c.inbox.staged.length ≤ 1024 ∧
      Handshake.process c.inbox.staged = .ok .incomplete ∧ [] ∉ s.heard c.id ∧
      (s.room.perform (.hangUp c.id)).2 = [.closed c.id c.peer .peerClosedMidMessage] := by
  let canvas : Canvas := ⟨2, 1, .replicate 2 Palette.white, .replicate 2 none, 0, rfl, rfl,
    fun _ hc => (Array.mem_replicate.1 hc).2 ▸ Palette.has_white, by decide⟩
  let room := Room.new canvas 1 1024 4096 none
  obtain ⟨s, hs, ⟨_, _, hroom⟩, hheard, hconn⟩ :=
    exists_reachable_visited room .fresh [0x47, 0x45, 0x54] rfl Nat.zero_lt_one rfl rfl
  obtain ⟨c, hone, hid, hl, hp, hst⟩ : ∃ c, s.room.connections = [c] ∧ c.id = 1 ∧ c.listed = true ∧
      c.phase = .handshaking ∧ c.inbox.staged = [0x47, 0x45, 0x54] :=
    ⟨_, hconn, by decide +kernel, by decide +kernel, by decide +kernel, by decide +kernel⟩
  have hc : c ∈ s.room.connections := by rw [hone]; exact List.mem_singleton_self c
  have hne : [] ∉ s.heard c.id := by rw [hid, hheard]; simp
  have hcap : s.room.recvCapacity = 1024 := by rw [hroom]; rfl
  obtain ⟨hlen, -, hreq, -, hend⟩ := incomplete_of_reachable hs hc hl
  have hend := (hend (.inl hp) hne).2
  rw [if_pos (.inl (by rw [hst]; nofun))] at hend
  exact ⟨s, hs, c, hc, hl, hst, hcap ▸ hlen, hreq hp, hne, hend⟩

end Gathering
end SharedCanvas
