import SharedCanvas.Proofs.Session.Obeyed
import SharedCanvas.Service

namespace SharedCanvas

def Canvas.SameSize (c d : Canvas) : Prop := d.width = c.width ∧ d.height = c.height

namespace Canvas.SameSize

variable {c d e : Canvas}

theorem refl (c : Canvas) : c.SameSize c := ⟨rfl, rfl⟩

theorem trans (h : c.SameSize d) (h' : d.SameSize e) : c.SameSize e :=
  ⟨h'.1.trans h.1, h'.2.trans h.2⟩

theorem paintAll (c : Canvas) (ps : List Pixel) : c.SameSize (c.paintAll ps).1 :=
  paintAll_induction ps (refl c) fun _ _ _ h hp => ⟨hp.width.trans h.1, hp.height.trans h.2⟩

theorem restore (c : Canvas) (ps : List Pixel) : c.SameSize (c.restore ps) :=
  ⟨(c.restore_eq ps).1, (c.restore_eq ps).2.1⟩

end Canvas.SameSize

namespace Visit
open Canvas (SameSize)

theorem sameSize_receive (v : Visit) (site : Option Site) (bytes : Bytes) :
    v.canvas.SameSize (v.receive site bytes).1.canvas := by
  obtain ⟨ms, hc, -⟩ := v.obeys_receive site bytes
  rw [hc]
  exact .paintAll _ _

end Visit

namespace Room

theorem canvas_modify (r : Room) (id : Nat) (f : Connection → Connection × List Event) :
    (r.modify id f).1.canvas = r.canvas := by
  unfold modify
  split <;> rfl

theorem canvas_stand (r : Room) (id : Nat) (standing : Standing) :
    (r.stand id standing).canvas = r.canvas := by
  unfold stand
  split <;> rfl

theorem canvas_accept (r : Room) (id : Nat) (peer : String) (socket : Socket) :
    (r.accept id peer socket).1.canvas = r.canvas := by
  rcases r.accept_cases id peer socket with h | ⟨-, _, -, h⟩ <;> rw [h]

theorem sameSize_receive (r : Room) (id : Nat) (bytes : Bytes) :
    r.canvas.SameSize (r.receive id bytes).1.canvas := by
  unfold receive
  split
  · exact .refl _
  · exact Visit.sameSize_receive ⟨r.canvas, _, #[]⟩ r.site bytes

theorem sameSize_perform (r : Room) (task : Task) :
    r.canvas.SameSize (r.perform task).1.canvas := by
  cases task with
  | connect id peer socket =>
    rw [perform, canvas_accept]
    exact .refl _
  | data id bytes => exact r.sameSize_receive id bytes
  | hangUp id =>
    rw [perform, hangUp, canvas_modify]
    exact .refl _
  | broadcast payload => exact .refl _

theorem canvas_turnAway (r : Room) (rejection : Rejection Task) :
    (r.turnAway rejection).1.canvas = r.canvas := by
  unfold turnAway
  split
  · rfl
  · exact r.canvas_modify _ _
  · exact r.canvas_modify _ _
  · rfl

theorem sameSize_turnAway (r : Room) (rejection : Rejection Task) :
    r.canvas.SameSize (r.turnAway rejection).1.canvas := by
  rw [canvas_turnAway]
  exact .refl _

theorem sameSize_handOff (r : Room) (lanes : Lanes) (ps : List Pixel) :
    r.canvas.SameSize (r.handOff lanes ps).1.canvas := by
  rcases r.handOff_cases lanes ps with ⟨-, h⟩ | ⟨-, _, _, -, h⟩ | ⟨_, h⟩
  · rw [h]
    exact .refl _
  · rw [h]
    exact .refl _
  · rw [h]
    exact .restore _ _

end Room

namespace Service

/-- What neither a task nor a half of a tick can change. -/
structure Upholds (motive : Room → Prop) : Prop where
  perform : ∀ {r : Room} (task : Task), motive r → motive (r.perform task).1
  turnAway : ∀ {r : Room} (rejection : Rejection Task), motive r → motive (r.turnAway rejection).1
  drain : ∀ {r : Room}, motive r → motive r.drain.1
  handOff : ∀ {r : Room} (lanes : Lanes) (ps : List Pixel), motive r →
    motive (r.handOff lanes ps).1

variable {motive : Room → Prop} {s : Service}

theorem Upholds.work (h : Upholds motive) (hs : motive s.room) (lane : Nat) :
    motive (s.work lane).1.room := by
  unfold Service.work
  split
  · exact hs
  · exact h.perform _ hs

theorem Upholds.workTimes (h : Upholds motive) (hs : motive s.room) (lane n : Nat) :
    motive (s.workTimes lane n).1.room := by
  induction n generalizing s with
  | zero => exact hs
  | succ n ih => exact ih (h.work hs lane)

theorem Upholds.workAll (h : Upholds motive) (hs : motive s.room) : motive s.workAll.1.room := by
  rw [Service.workAll]
  generalize List.range s.lanes.count = order
  generalize ([] : List Event) = events
  induction order generalizing s events with
  | nil => exact hs
  | cons lane order ih =>
    rw [List.foldl_cons]
    exact ih (h.workTimes hs lane _) _

theorem room_submit {task : Task} {t : Service} (h : s.submit task = .ok t) : t.room = s.room := by
  rw [submit] at h
  cases hl : s.lanes.submit task with
  | error e => simp [hl, Except.map] at h
  | ok lanes =>
    simp only [hl, Except.map, Except.ok.injEq] at h
    rw [← h]

theorem Upholds.offer (h : Upholds motive) (hs : motive s.room) (task : Task) :
    motive (s.offer task).1.room := by
  unfold Service.offer
  split
  · rename_i t ht
    exact room_submit ht ▸ hs
  · exact h.turnAway _ hs

theorem upholds_sameSize (c : Canvas) : Upholds fun r => c.SameSize r.canvas :=
  ⟨fun task h => h.trans (Room.sameSize_perform _ task),
    fun rejection h => h.trans (Room.sameSize_turnAway _ rejection), fun h => h.trans ⟨rfl, rfl⟩,
    fun lanes ps h => h.trans (Room.sameSize_handOff _ lanes ps)⟩

theorem sameSize_work (s : Service) (lane : Nat) :
    s.room.canvas.SameSize (s.work lane).1.room.canvas :=
  (upholds_sameSize s.room.canvas).work (.refl _) lane

theorem sameSize_workAll (s : Service) : s.room.canvas.SameSize s.workAll.1.room.canvas :=
  (upholds_sameSize s.room.canvas).workAll (.refl _)

theorem sameSize_offer (s : Service) (task : Task) :
    s.room.canvas.SameSize (s.offer task).1.room.canvas :=
  (upholds_sameSize s.room.canvas).offer (.refl _) task

end Service
end SharedCanvas
