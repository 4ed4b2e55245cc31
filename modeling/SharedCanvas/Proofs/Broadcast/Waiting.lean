import SharedCanvas.Lanes
import SharedCanvas.Proofs.Lanes.Queue

namespace SharedCanvas

def Task.payload? : Task → Option Bytes
  | .broadcast payload => some payload
  | _ => none

theorem Task.payload?_eq_none {task : Task} {id : Nat} (h : task.connection? = some id) :
    task.payload? = none := by
  cases task with
  | broadcast payload => simp [connection?] at h
  | _ => rfl

namespace Lanes

def tasks (l : Lanes) (lane : Nat) : List Task := l.queues[lane]?.elim [] TaskQueue.items

/-- The deltas that wait to be broadcast, oldest first. -/
def payloads (l : Lanes) : List Bytes := (l.tasks 0).filterMap Task.payload?

variable {l l' : Lanes} {task : Task} {lane : Nat}

theorem tasks_start (workers capacity lane : Nat) : (start workers capacity).tasks lane = [] := by
  unfold tasks
  cases hq : (start workers capacity).queues[lane]? with
  | none => rfl
  | some q =>
    have := Array.mem_of_getElem? hq
    rw [start, Array.mem_replicate] at this
    rw [this.2]
    rfl

theorem queues_of_submit (h : l.submit task = .ok l') :
    ∃ (hl : l.laneOf task < l.queues.size) (q : TaskQueue Task),
      l.queues[l.laneOf task].push task = .ok q ∧
        l'.queues = l.queues.set (l.laneOf task) q hl := by
  unfold submit at h
  dsimp only at h
  split at h
  · cases h
  · rename_i q hq
    exact ⟨_, q, hq, (congrArg queues (Except.ok.inj h)).symm⟩

theorem queues_of_take (h : l.take lane = some (task, l')) :
    ∃ (hl : lane < l.queues.size) (q : TaskQueue Task),
      l.queues[lane].pop = .item task q ∧ l'.queues = l.queues.set lane q hl := by
  unfold take at h
  split at h
  · rename_i hl
    split at h
    · rename_i t q hq
      obtain ⟨rfl, rfl⟩ := Prod.mk.inj (Option.some.inj h)
      exact ⟨hl, q, hq, rfl⟩
    · cases h
  · cases h

/-- A task that is accepted goes behind all others of its lane. -/
theorem tasks_submit (h : l.submit task = .ok l') (lane : Nat) :
    l'.tasks lane = if l.laneOf task = lane then l.tasks lane ++ [task] else l.tasks lane := by
  obtain ⟨hl, q, hq, hl'⟩ := queues_of_submit h
  rw [tasks, tasks, hl', Array.getElem?_set]
  -- Only the lane of the task has changed.
  split
  · rename_i he
    subst he
    rw [Array.getElem?_eq_getElem hl]
    exact TaskQueue.items_of_push hq
  · rfl

/-- The task that is taken was the oldest of its lane. -/
theorem tasks_take (h : l.take lane = some (task, l')) :
    l.tasks lane = task :: l'.tasks lane ∧ ∀ k ≠ lane, l'.tasks k = l.tasks k := by
  obtain ⟨hl, q, hq, hl'⟩ := queues_of_take h
  constructor
  · rw [tasks, tasks, hl', Array.getElem?_set_self hl, Array.getElem?_eq_getElem hl]
    exact TaskQueue.items_of_pop hq
  · intro k hk
    rw [tasks, tasks, hl', Array.getElem?_set_ne hl hk.symm]

theorem mem_tasks_submit (h : l.submit task = .ok l') {k : Nat} {u : Task} (hu : u ∈ l'.tasks k) :
    u ∈ l.tasks k ∨ u = task := by
  rw [tasks_submit h] at hu
  split at hu
  · exact (List.mem_append.1 hu).imp_right List.mem_singleton.1
  · exact .inl hu

theorem mem_tasks_of_take (h : l.take lane = some (task, l')) : task ∈ l.tasks lane := by
  rw [(tasks_take h).1]
  exact List.mem_cons_self

theorem sublist_tasks_take (h : l.take lane = some (task, l')) (k : Nat) :
    (l'.tasks k).Sublist (l.tasks k) := by
  obtain ⟨hl, hk⟩ := tasks_take h
  by_cases he : k = lane
  · rw [he, hl]
    exact List.sublist_cons_self ..
  · exact hk k he ▸ List.Sublist.refl _

theorem tasks_close (l : Lanes) (lane : Nat) : l.close.tasks lane = l.tasks lane := by
  rw [tasks, tasks, close, Array.getElem?_map]
  cases l.queues[lane]? with
  | none => rfl
  | some q => rfl

def IsIdle (l : Lanes) : Prop := ∀ lane, l.tasks lane = []

theorem waiting_eq (l : Lanes) (lane : Nat) : l.waiting lane = (l.tasks lane).length := by
  rw [waiting, tasks]
  cases l.queues[lane]? with
  | none => rfl
  | some q => rfl

theorem isIdle_start (workers capacity : Nat) : (start workers capacity).IsIdle :=
  tasks_start workers capacity

theorem exists_submit_start (workers capacity : Nat) (task : Task) :
    ∃ l, (start workers capacity).submit task = .ok l := by
  have hlt := (start workers capacity).laneOf_lt task
  have hq : (start workers capacity).queues[(start workers capacity).laneOf task] = .new capacity :=
    Array.getElem_replicate _
  unfold submit
  dsimp only
  split
  · rename_i r hr
    rw [hq, TaskQueue.push, TaskQueue.new, if_neg Bool.false_ne_true,
      dif_pos (show ([] : List Task).length < max capacity 1 from
        Nat.lt_of_lt_of_le Nat.zero_lt_one (Nat.le_max_right _ _))] at hr
    simp at hr
  · exact ⟨_, rfl⟩

theorem exists_take {rest : List Task} (h : l.tasks lane = task :: rest) :
    ∃ l', l.take lane = some (task, l') := by
  unfold tasks at h
  unfold take
  by_cases hl : lane < l.queues.size
  · rw [Array.getElem?_eq_getElem hl, Option.elim_some] at h
    obtain ⟨q, hq⟩ := TaskQueue.exists_pop h
    rw [dif_pos hl, hq]
    exact ⟨_, rfl⟩
  · rw [Array.getElem?_eq_none (Nat.le_of_not_lt hl)] at h
    simp at h

theorem payloads_start (workers capacity : Nat) : (start workers capacity).payloads = [] := by
  rw [payloads, tasks_start]
  rfl

theorem payloads_submit_broadcast {payload : Bytes} (h : l.submit (.broadcast payload) = .ok l') :
    l'.payloads = l.payloads ++ [payload] := by
  have hl : l.laneOf (.broadcast payload) = 0 := rfl
  rw [payloads, tasks_submit h, if_pos hl, List.filterMap_append]
  rfl

theorem payloads_submit {id : Nat} (ht : task.connection? = some id) (h : l.submit task = .ok l') :
    l'.payloads = l.payloads := by
  rw [payloads, tasks_submit h]
  split
  · rw [List.filterMap_append, List.filterMap_cons_none (Task.payload?_eq_none ht),
      List.filterMap_nil, List.append_nil, payloads]
  · rfl

theorem payloads_take_broadcast {payload : Bytes} (h : l.take 0 = some (.broadcast payload, l')) :
    l.payloads = payload :: l'.payloads := by
  rw [payloads, (tasks_take h).1]
  rfl

theorem payloads_take {id : Nat} (ht : task.connection? = some id)
    (h : l.take lane = some (task, l')) : l'.payloads = l.payloads := by
  obtain ⟨hl, hk⟩ := tasks_take h
  by_cases hz : lane = 0
  · subst hz
    rw [payloads, payloads, hl, List.filterMap_cons_none (Task.payload?_eq_none ht)]
  · rw [payloads, payloads, hk 0 (Ne.symm hz)]

theorem payloads_close (l : Lanes) : l.close.payloads = l.payloads := by
  rw [payloads, tasks_close, payloads]

end Lanes
end SharedCanvas
