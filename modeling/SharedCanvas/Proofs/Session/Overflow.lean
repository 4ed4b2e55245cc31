import SharedCanvas.Proofs.Session.Staging
import SharedCanvas.Server

namespace SharedCanvas

def Handshake.IsUpgrade (request : Bytes) : Prop :=
  ∃ response, process request = .ok (.upgraded response request.length)

instance (request : Bytes) : Decidable (Handshake.IsUpgrade request) :=
  match h : Handshake.process request with
  | .ok (.upgraded response n) =>
    if hn : n = request.length then .isTrue ⟨response, hn ▸ h⟩
    else .isFalse fun ⟨_, h'⟩ => hn (by simp_all)
  | .error _ | .ok .incomplete | .ok (.plain _ _) => .isFalse fun ⟨_, h'⟩ => by simp_all

theorem Handshake.isUpgrade_upgradeRequest : IsUpgrade (upgradeRequest "h" "/" "k") := by
  decide +kernel

def Frame.IsWhole (bs : Bytes) : Prop := ∃ frame, decode bs = .ok (.complete frame bs.length)

instance (bs : Bytes) : Decidable (Frame.IsWhole bs) :=
  match h : Frame.decode bs with
  | .ok (.complete frame n) =>
    if hn : n = bs.length then .isTrue ⟨frame, hn ▸ h⟩
    else .isFalse fun ⟨_, h'⟩ => hn (by simp_all)
  | .error _ | .ok (.incomplete _) => .isFalse fun ⟨_, h'⟩ => by simp_all

/-- What has come of the first unit that has not come whole. -/
def unfinished : List Bytes → Bytes → Bytes
  | [], bs => bs
  | unit :: units, bs =>
    if unit.length ≤ bs.length then unfinished units (bs.drop unit.length) else bs

def Event.isOverflow : Event → Bool
  | .closed _ _ (.error e) => e.isOverflow
  | _ => false

section
variable {request unit bs : Bytes} {frames units : List Bytes}

theorem unfinished_of_lt (h : bs.length < unit.length) : unfinished (unit :: units) bs = bs :=
  if_neg (Nat.not_le_of_lt h)

theorem unfinished_append (unit bs : Bytes) (units : List Bytes) :
    unfinished (unit :: units) (unit ++ bs) = unfinished units bs := by
  rw [unfinished, if_pos (by simp), List.drop_left]

/-- Of a stream of units either the first has come whole, or some of it is missing. -/
theorem lt_or_append_of_prefix (h : bs <+: (unit :: units).flatten) :
    (bs.length < unit.length ∧ ∃ more, unit = bs ++ more ∧ more ≠ []) ∨
      ∃ rest, bs = unit ++ rest ∧ rest <+: units.flatten := by
  rw [List.flatten_cons] at h
  rcases Nat.lt_or_ge bs.length unit.length with hl | hl
  · obtain ⟨more, hm⟩ := List.prefix_of_prefix_length_le h (List.prefix_append _ _)
      (Nat.le_of_lt hl)
    refine .inl ⟨hl, more, hm.symm, ?_⟩
    rintro rfl
    rw [← hm, List.append_nil] at hl
    exact Nat.lt_irrefl _ hl
  · obtain ⟨rest, rfl⟩ := List.prefix_of_prefix_length_le (List.prefix_append _ _) h hl
    exact .inr ⟨rest, rfl, (List.prefix_append_right_inj unit).1 h⟩

theorem unfinished_eq_nil_or_lt (h : bs <+: units.flatten) :
    unfinished units bs = [] ∨ ∃ unit ∈ units, (unfinished units bs).length < unit.length := by
  -- On the units: the first either came whole and is passed over, or it is the unfinished one.
  induction units generalizing bs with
  | nil => exact .inl (List.prefix_nil.1 h)
  | cons unit units ih =>
    rcases lt_or_append_of_prefix h with ⟨hl, -⟩ | ⟨rest, rfl, hr⟩
    · rw [unfinished_of_lt hl]
      exact .inr ⟨unit, List.mem_cons_self, hl⟩
    · rw [unfinished_append]
      rcases ih hr with he | ⟨u, hu, hlt⟩
      · exact .inl he
      · exact .inr ⟨u, List.mem_cons_of_mem _ hu, hlt⟩

theorem Frame.IsWhole.incomplete_of_append {more : Bytes} (h : IsWhole (bs ++ more))
    (hm : more ≠ []) : ∃ needed, decode bs = .ok (.incomplete needed) := by
  obtain ⟨frame, hf⟩ := h
  rcases hd : decode bs with e | (needed | ⟨g, n⟩)
  · rw [decode_append_of_error hd] at hf
    simp at hf
  · exact ⟨needed, rfl⟩
  · have hn := (consumed_of_decode hd).2
    rw [decode_append_of_complete hd, Except.ok.injEq, Decoded.complete.injEq,
      List.length_append] at hf
    have hpos := List.length_pos_iff.2 hm
    omega

/-- Of a stream of frames the unfinished one is left over. -/
theorem Frame.split_of_prefix (hf : ∀ f ∈ frames, IsWhole f) (h : bs <+: frames.flatten) :
    (split bs).2 = (unfinished frames bs, none) := by
  induction frames generalizing bs with
  | nil =>
    rw [List.prefix_nil.1 h, split_of_incomplete (n := 2) rfl]
    rfl
  | cons f frames ih =>
    have hw := hf f List.mem_cons_self
    rcases lt_or_append_of_prefix h with ⟨hl, more, rfl, hm⟩ | ⟨rest, rfl, hr⟩
    · obtain ⟨needed, hd⟩ := hw.incomplete_of_append hm
      rw [split_of_incomplete hd, unfinished_of_lt hl]
    · obtain ⟨frame, hd⟩ := hw
      rw [split_append_of_whole hd, unfinished_append]
      exact ih (fun g hg => hf g (List.mem_cons_of_mem _ hg)) hr

theorem Handshake.IsUpgrade.incomplete_of_append {more : Bytes} (h : IsUpgrade (bs ++ more))
    (hm : more ≠ []) : process bs = .ok .incomplete := by
  apply Classical.byContradiction
  intro hi
  obtain ⟨response, hr⟩ := h
  rw [process_append hi] at hr
  have hn := consumed_le_length hr nofun
  rw [Verdict.consumed, List.length_append] at hn
  have hpos := List.length_pos_iff.2 hm
  omega

/-- A connection that goes on has staged what has come of the unit that is not whole. -/
theorem Connection.Stages.staged_eq {c : Connection} (hs : c.Stages bs)
    (hr : Handshake.IsUpgrade request) (hf : ∀ f ∈ frames, Frame.IsWhole f)
    (h : bs <+: (request :: frames).flatten) :
    c.inbox.staged = unfinished (request :: frames) bs := by
  rcases lt_or_append_of_prefix h with ⟨hl, more, rfl, hm⟩ | ⟨rest, rfl, hp⟩
  · have hi := hr.incomplete_of_append hm
    rw [unfinished_of_lt hl]
    rcases hs with ⟨-, -, hst⟩ | ⟨-, response, n, hv, -⟩
    · exact hst
    · rw [hi] at hv
      simp at hv
  · -- The request came whole, and the verdict on it does not depend on the frames behind it.
    obtain ⟨response, hv⟩ := hr
    have hv' := (Handshake.process_append (by rw [hv]; nofun) rest).trans hv
    rw [unfinished_append]
    rcases hs with ⟨-, hi, -⟩ | ⟨-, response', n, hv'', -, hst⟩
    · rw [hi] at hv'
      simp at hv'
    · rw [hv', Except.ok.injEq, Handshake.Verdict.upgraded.injEq] at hv''
      rw [hst, ← hv''.2, List.drop_left, Frame.split_of_prefix hf hp]

end

namespace Room

variable {r : Room} {c d : Connection} {id capacity : Nat} {bs more : Bytes} {chunks : List Bytes}

theorem receiveAll_cons (r : Room) (id : Nat) (chunk : Bytes) (chunks : List Bytes) :
    r.receiveAll id (chunk :: chunks) = (((r.receive id chunk).1.receiveAll id chunks).1,
      (r.receive id chunk).2 ++ ((r.receive id chunk).1.receiveAll id chunks).2) := rfl

theorem mem_receiveAll {e : Event} (h : e ∈ (r.receiveAll id chunks).2) :
    ∃ before chunk after, chunks = before ++ chunk :: after ∧
      e ∈ ((r.receiveAll id before).1.receive id chunk).2 := by
  induction chunks generalizing r with
  | nil => exact absurd h List.not_mem_nil
  | cons chunk chunks ih =>
    rw [receiveAll_cons] at h
    rcases List.mem_append.1 h with h | h
    · exact ⟨[], chunk, chunks, rfl, h⟩
    · obtain ⟨before, chunk', after, rfl, he⟩ := ih h
      exact ⟨chunk :: before, chunk', after, rfl, he⟩

/-- The connection is listed and takes bytes in. -/
def InPlay (r : Room) (id : Nat) (c : Connection) : Prop :=
  r.member? id = some c ∧ c.phase.isLeaving = false

/-- While the connection is in play, it has staged what it should of the bytes that have come. -/
def Stages (r : Room) (id capacity : Nat) (bs : Bytes) : Prop :=
  ∀ c, r.InPlay id c → c.inbox.capacity = capacity ∧ c.Stages bs

theorem settle_spec (hl : c.listed = true) (halt : Option Halt) : (settle c halt).1.id = c.id ∧
    (halt = none ∧ (settle c halt).1 = c ∨ (settle c halt).1.phase.isLeaving = true) := by
  have hr : ∀ b : Connection, b.release.phase.isLeaving = true := by
    intro b
    rw [b.phase_release]
    rfl
  rcases halt with _ | _ | e
  · exact ⟨rfl, .inl ⟨rfl, rfl⟩⟩
  · obtain ⟨phase, hp, hs⟩ := settle_leave hl
    rw [hs]
    split
    · exact ⟨Connection.id_release _, .inr (hr _)⟩
    · exact ⟨rfl, .inr hp⟩
  · rw [settle_fail hl]
    exact ⟨c.id_release, .inr (hr c)⟩

theorem isOverflow_of_settle (hl : c.listed = true) {halt : Option Halt} :
    (∃ e ∈ (settle c halt).2, e.isOverflow = true) ↔
      ∃ e, halt = some (.fail e) ∧ e.isOverflow = true := by
  rcases halt with _ | _ | e
  · simp [settle]
  · obtain ⟨phase, -, hs⟩ := settle_leave hl
    rw [hs]
    split <;> simp [Event.isOverflow]
  · simp [settle_fail hl, Event.isOverflow]

theorem InPlay.eq (hc : r.InPlay id c) (hd : r.InPlay id d) : d = c := by
  have h := hd.1.symm.trans hc.1
  rwa [Option.some.injEq] at h

theorem stages_put (hc : r.connection? id = some c) (hi : d.id = id)
    (hd : d.phase.isLeaving = false → d.inbox.capacity = capacity ∧ d.Stages bs) :
    (r.put d).Stages id capacity bs := by
  rintro x ⟨hm, hp⟩
  rw [member?, connection?_put hc hi, Option.filter_eq_some_iff, Option.some.injEq] at hm
  obtain ⟨rfl, -⟩ := hm
  exact hd hp

theorem receive_of_not_inPlay (hn : ∀ c, ¬ r.InPlay id c) (more : Bytes) :
    (∀ c, ¬ (r.receive id more).1.InPlay id c) ∧
      ∀ e ∈ (r.receive id more).2, e.isOverflow = false := by
  rcases hm : r.member? id with _ | c
  · have hr : r.receive id more = (r, [.unclaimed id more.length]) := by rw [receive, hm]
    rw [hr]
    exact ⟨hn, by simp [Event.isOverflow]⟩
  · have hcl := Option.filter_eq_some_iff.1 hm
    have hp : c.phase.isLeaving = true := by
      rw [← Bool.not_eq_false]
      exact fun hp => hn c ⟨hm, hp⟩
    have hv : (Visit.mk r.canvas c #[]).receive r.site more = (⟨r.canvas, c, #[]⟩, none) := by
      rw [Visit.receive, if_pos hp]
    rw [receive_of_member hm, hv]
    refine ⟨?_, by simp [settle]⟩
    rintro x ⟨hx, hl⟩
    have hput : (r.put c).connection? id = some c :=
      connection?_put hcl.1 (mem_of_connection? hcl.1).2
    have hx := (Option.filter_eq_some_iff.1 hx).1.symm.trans hput
    rw [Option.some.injEq] at hx
    rw [hx, hp] at hl
    simp at hl

/-- A chunk overflows if with what is staged it is more than the capacity, and nothing else does. -/
theorem receive_of_inPlay (hc : r.InPlay id c) (hs : c.Stages bs) (more : Bytes) :
    (r.receive id more).1.Stages id c.inbox.capacity (bs ++ more) ∧
      ((∃ e ∈ (r.receive id more).2, e.isOverflow = true) ↔
        c.inbox.capacity < c.inbox.staged.length + more.length) := by
  obtain ⟨hm, hp⟩ := hc
  obtain ⟨hcon, hl⟩ := Option.filter_eq_some_iff.1 hm
  have hv := Visit.receive_spec (v := ⟨r.canvas, c, #[]⟩) r.site hs more
  rw [receive_of_member hm]
  dsimp only at hv ⊢
  split at hv
  · rename_i hlt
    obtain ⟨e, hr, he⟩ := hv
    rw [hr]
    obtain ⟨hi, hset⟩ := settle_spec hl (some (.fail e))
    constructor
    · apply stages_put hcon (hi.trans (mem_of_connection? hcon).2)
      intro hx
      rw [hset.resolve_left (by simp)] at hx
      simp at hx
    · refine iff_of_true ?_ hlt
      obtain ⟨e', he', ho⟩ := (isOverflow_of_settle hl).2 ⟨e, rfl, he⟩
      exact ⟨e', List.mem_append_right _ he', ho⟩
  · rename_i hle
    generalize (Visit.mk r.canvas c #[]).receive r.site more = result at hv ⊢
    obtain ⟨w, halt⟩ := result
    have hl : w.conn.listed = true := hv.keeps.listed.trans hl
    obtain ⟨hi, hset⟩ := settle_spec hl halt
    constructor
    · apply stages_put hcon (hi.trans (hv.keeps.id.trans (mem_of_connection? hcon).2))
      intro hx
      rcases hset with ⟨rfl, hset⟩ | hset
      · rw [hset]
        exact ⟨hv.keeps.capacity, hv.stages rfl⟩
      · rw [hset] at hx
        simp at hx
    · refine iff_of_false ?_ hle
      rintro ⟨e, he, ho⟩
      rcases List.mem_append.1 he with he | he
      · -- Before the settlement nothing is reported of an end.
        have hend : e.isEnd = true := by
          cases e <;> simp_all [Event.isOverflow, Event.isEnd]
        simpa using hv.keeps.quiet e (Array.mem_toList_iff.1 he) hend
      · obtain ⟨e', he', ho'⟩ := (isOverflow_of_settle hl).1 ⟨e, he, ho⟩
        rw [hv.halt e' he'] at ho'
        simp at ho'

theorem Stages.receive (h : r.Stages id capacity bs) (more : Bytes) :
    (r.receive id more).1.Stages id capacity (bs ++ more) ∧
      ((∃ e ∈ (r.receive id more).2, e.isOverflow = true) ↔
        ∃ c, r.InPlay id c ∧ capacity < c.inbox.staged.length + more.length) := by
  by_cases hp : ∃ c, r.InPlay id c
  · obtain ⟨c, hc⟩ := hp
    obtain ⟨hcap, hs⟩ := h c hc
    obtain ⟨hst, ho⟩ := receive_of_inPlay hc hs more
    rw [hcap] at hst ho
    refine ⟨hst, ho.trans ⟨fun hlt => ⟨c, hc, hlt⟩, ?_⟩⟩
    rintro ⟨d, hd, hlt⟩
    rwa [hc.eq hd] at hlt
  · have hn : ∀ c, ¬ r.InPlay id c := fun c hc => hp ⟨c, hc⟩
    obtain ⟨hst, ho⟩ := receive_of_not_inPlay hn more
    refine ⟨fun c hc => (hst c hc).elim, iff_of_false ?_ fun ⟨c, hc, _⟩ => hn c hc⟩
    rintro ⟨e, he, hov⟩
    rw [ho e he] at hov
    simp at hov

theorem Stages.receiveAll (h : r.Stages id capacity bs) (chunks : List Bytes) :
    (r.receiveAll id chunks).1.Stages id capacity (bs ++ chunks.flatten) := by
  induction chunks generalizing r bs with
  | nil =>
    rw [List.flatten_nil, List.append_nil]
    exact h
  | cons chunk chunks ih =>
    rw [receiveAll_cons, List.flatten_cons, ← List.append_assoc]
    exact ih (h.receive chunk).1

section
variable {request : Bytes} {frames : List Bytes}

/-- On a stream of one request to upgrade and frames, the task of a chunk ends the connection by an
overflow exactly if it is still in play and the chunk, whatever whole units it holds, does not fit
behind what has come of the unfinished unit. No task does so if every unit but its last byte fits
together with every chunk. -/
theorem overflows_iff_unfinished (hm : r.member? id = some c) (hp : c.phase = .handshaking)
    (hi : c.inbox = .new capacity) (hr : Handshake.IsUpgrade request)
    (hf : ∀ f ∈ frames, Frame.IsWhole f) (h : chunks.flatten <+: (request :: frames).flatten) :
    (∀ before chunk after, chunks = before ++ chunk :: after →
      ((∃ e ∈ ((r.receiveAll id before).1.receive id chunk).2, e.isOverflow = true) ↔
        (∃ d, (r.receiveAll id before).1.InPlay id d) ∧
          capacity < (unfinished (request :: frames) before.flatten).length + chunk.length)) ∧
    ((∀ unit ∈ request :: frames, ∀ chunk ∈ chunks, unit.length + chunk.length ≤ capacity + 1) →
      ∀ e ∈ (r.receiveAll id chunks).2, e.isOverflow = false) := by
  -- Before the first chunk nothing is staged.
  have h0 : r.Stages id capacity [] := by
    intro d hd
    have hdc : d = c := InPlay.eq ⟨hm, by rw [hp]; rfl⟩ hd
    rw [hdc, hi]
    refine ⟨rfl, .inl ⟨hp, rfl, ?_⟩⟩
    rw [hi]
    rfl
  have hpre : ∀ before chunk after, chunks = before ++ chunk :: after →
      before.flatten <+: (request :: frames).flatten := by
    rintro before chunk after rfl
    rw [List.flatten_append] at h
    exact (List.prefix_append _ _).trans h
  have hiff : ∀ before chunk after, chunks = before ++ chunk :: after →
      ((∃ e ∈ ((r.receiveAll id before).1.receive id chunk).2, e.isOverflow = true) ↔
        (∃ d, (r.receiveAll id before).1.InPlay id d) ∧
          capacity < (unfinished (request :: frames) before.flatten).length + chunk.length) := by
    intro before chunk after hc
    have hs := h0.receiveAll before
    have heq : ∀ d, (r.receiveAll id before).1.InPlay id d →
        d.inbox.staged = unfinished (request :: frames) before.flatten :=
      fun d hd => (hs d hd).2.staged_eq hr hf (hpre before chunk after hc)
    rw [(hs.receive chunk).2]
    constructor
    · rintro ⟨d, hd, hlt⟩
      rw [heq d hd] at hlt
      exact ⟨⟨d, hd⟩, hlt⟩
    · rintro ⟨⟨d, hd⟩, hlt⟩
      rw [← heq d hd] at hlt
      exact ⟨d, hd, hlt⟩
  refine ⟨hiff, ?_⟩
  intro hfit e he
  obtain ⟨before, chunk, after, hc, he⟩ := mem_receiveAll he
  have hmem : chunk ∈ chunks := by simp [hc]
  rw [← Bool.not_eq_true]
  intro ho
  have hlt := ((hiff before chunk after hc).1 ⟨e, he, ho⟩).2
  -- A unit is at least one byte longer than what has come of it.
  rcases unfinished_eq_nil_or_lt (hpre before chunk after hc) with hn | ⟨unit, hu, hul⟩
  · have hfirst := hfit request List.mem_cons_self chunk hmem
    have hne : request ≠ [] := by
      rintro rfl
      obtain ⟨response, hv⟩ := hr
      exact absurd hv (by simp [Handshake.process, Handshake.headEnd?, Handshake.headEndFrom])
    have hpos := List.length_pos_iff.2 hne
    rw [hn, List.length_nil] at hlt
    omega
  · have := hfit unit hu chunk hmem
    omega

/-- A request that comes in two pieces, the second of them with a ping. -/
theorem overflows_iff_unfinished_ping : ∃ r : Room, ∃ c, r.member? 1 = some c ∧
    c.phase = .handshaking ∧ c.inbox = .new 1024 ∧
    ∃ request frame : Bytes, Handshake.IsUpgrade request ∧ Frame.IsWhole frame ∧
      ∀ e ∈ (r.receiveAll 1 [request.take 50, request.drop 50 ++ frame]).2,
        e.isOverflow = false := by
  let canvas : Canvas := ⟨2, 1, .replicate 2 Palette.white, .replicate 2 none, 0, rfl, rfl,
    fun _ hc => (Array.mem_replicate.1 hc).2 ▸ Palette.has_white, by decide⟩
  let request := Handshake.upgradeRequest "h" "/" "k"
  let frame : Bytes := [0x89, 0x80, 0, 0, 0, 0]
  have hr : Handshake.IsUpgrade request := Handshake.isUpgrade_upgradeRequest
  have hf : Frame.IsWhole frame := by decide +kernel
  refine ⟨((Room.new canvas 1 1024 4096 none).accept 1 "peer" .fresh).1, _, rfl, rfl, rfl, request,
    frame, hr, hf, ?_⟩
  refine (overflows_iff_unfinished rfl rfl rfl hr (List.forall_mem_singleton.2 hf) ?_).2 ?_
  · exact ⟨[], by decide +kernel⟩
  · decide +kernel

/-- A request and short frames that come in one chunk overflow, though each fits by itself. -/
theorem overflow_of_pipelined_frames : ∃ config : Config, config.check = .ok () ∧
    ∃ request frames chunks, Handshake.IsUpgrade request ∧
      request.length ≤ min Handshake.maxHead config.recvBuffer ∧
      (∀ f ∈ frames, ∃ frame : Frame, Frame.decode f = .ok (.complete frame f.length) ∧
        frame.fin = true ∧ f.length ≤ config.recvBuffer) ∧
      chunks.flatten = (request :: frames).flatten ∧
      (∀ chunk ∈ chunks, 1 ≤ chunk.length ∧ chunk.length ≤ Server.readChunk) ∧
      ∃ canvas, ∃ e ∈ (((Room.new canvas config.maxClients config.recvBuffer config.outboxLimit
        none).accept 1 "peer" .fresh).1.receiveAll 1 chunks).2, e.isOverflow = true := by
  let canvas : Canvas := ⟨2, 1, .replicate 2 Palette.white, .replicate 2 none, 0, rfl, rfl,
    fun _ hc => (Array.mem_replicate.1 hc).2 ▸ Palette.has_white, by decide⟩
  let config : Config := { Config.standard with width := 2, height := 1, recvBuffer := 1024 }
  let request := Handshake.upgradeRequest "h" "/" "k"
  let frames := List.replicate 152 ([0x89, 0x80, 0, 0, 0, 0] : Bytes)
  refine ⟨config, rfl, request, frames, [(request :: frames).flatten],
    Handshake.isUpgrade_upgradeRequest, by decide +kernel, ?_, List.flatten_singleton,
    by decide +kernel, canvas, ?_⟩
  · intro f hf
    rw [List.eq_of_mem_replicate hf]
    exact ⟨⟨true, 9, true, []⟩, rfl, rfl, by decide⟩
  · decide +kernel

end

end Room

end SharedCanvas
