import SharedCanvas.Service
import SharedCanvas.Proofs.Broadcast.Waiting

namespace SharedCanvas

namespace Lanes

variable {l l' : Lanes} {task : Task} {lane : Nat}

def shut (l : Lanes) (lane : Nat) : Lanes where
  queues := l.queues.modify lane TaskQueue.close
  nonempty := by simpa using l.nonempty

def isShut (l : Lanes) (lane : Nat) : Bool := l.queues[lane]?.elim true TaskQueue.closed

def IsDrained (l : Lanes) : Prop := ∀ q ∈ l.queues, q.pop = .ended

instance (l : Lanes) : Decidable l.IsDrained :=
  decidable_of_iff (∀ q ∈ l.queues, q.closed = true ∧ q.items = [])
    (forall₂_congr fun _ _ => TaskQueue.pop_eq_ended_iff.symm)

theorem queues_foldl_shut (ks : List Nat) (l : Lanes) (i : Nat) :
    (ks.foldl shut l).queues[i]? =
      if i ∈ ks then l.queues[i]?.map TaskQueue.close else l.queues[i]? := by
  induction ks generalizing l with
  | nil => rfl
  | cons k ks ih =>
    rw [List.foldl_cons, ih, shut, Array.getElem?_modify]
    cases l.queues[i]? with
    | none => simp
    | some q =>
      by_cases hk : k = i
      · simp [hk, TaskQueue.close]
      · simp [hk, Ne.symm hk]

theorem foldl_shut (l : Lanes) : (List.range l.count).foldl shut l = l.close := by
  have hq : ((List.range l.count).foldl shut l).queues = l.close.queues := by
    apply Array.ext_getElem?
    intro i
    rw [queues_foldl_shut, close, Array.getElem?_map]
    split
    · rfl
    · rename_i hi
      rw [List.mem_range, Nat.not_lt] at hi
      rw [Array.getElem?_eq_none hi, Option.map_none]
  cases hl : (List.range l.count).foldl shut l
  rw [hl] at hq
  cases hc : l.close
  rw [hc] at hq
  congr

theorem laneOf_eq (h : l'.count = l.count) : l'.laneOf = l.laneOf := by
  funext task
  rw [laneOf, laneOf, h]

theorem laneOf_congr {t u : Task} (h : t.connection? = u.connection?) :
    l.laneOf t = l.laneOf u := by
  rw [laneOf, laneOf, h]

theorem count_submit (h : l.submit task = .ok l') : l'.count = l.count := by
  obtain ⟨_, q, -, hq⟩ := queues_of_submit h
  rw [count, count, hq, Array.size_set]

theorem count_take (h : l.take lane = some (task, l')) : l'.count = l.count := by
  obtain ⟨_, q, -, hq⟩ := queues_of_take h
  rw [count, count, hq, Array.size_set]

theorem count_shut (l : Lanes) (lane : Nat) : (l.shut lane).count = l.count := Array.size_modify ..

theorem tasks_shut (l : Lanes) (k lane : Nat) : (l.shut k).tasks lane = l.tasks lane := by
  rw [tasks, tasks, shut, Array.getElem?_modify]
  split
  · cases l.queues[lane]? <;> rfl
  · rfl

theorem isShut_shut (l : Lanes) (k lane : Nat) :
    (l.shut k).isShut lane = (k == lane || l.isShut lane) := by
  rw [isShut, isShut, shut, Array.getElem?_modify]
  by_cases hk : k = lane
  · cases l.queues[lane]? <;> simp [hk, TaskQueue.close]
  · simp [hk]

theorem isShut_submit (h : l.submit task = .ok l') (lane : Nat) :
    l'.isShut lane = l.isShut lane := by
  obtain ⟨hl, q, hq, hl'⟩ := queues_of_submit h
  rw [isShut, isShut, hl', Array.getElem?_set]
  split
  · rename_i he
    subst he
    rw [Array.getElem?_eq_getElem hl]
    exact TaskQueue.closed_of_push hq
  · rfl

theorem isShut_take (h : l.take lane = some (task, l')) (k : Nat) : l'.isShut k = l.isShut k := by
  obtain ⟨hl, q, hq, hl'⟩ := queues_of_take h
  rw [isShut, isShut, hl', Array.getElem?_set]
  split
  · rename_i he
    subst he
    rw [Array.getElem?_eq_getElem hl]
    exact TaskQueue.closed_of_pop hq
  · rfl

theorem item_of_submit {r : Rejection Task} (h : l.submit task = .error r) : r.item = task := by
  unfold submit at h
  dsimp only at h
  split at h
  · rename_i hq
    exact Except.error.inj h ▸ TaskQueue.item_of_push hq
  · cases h

theorem submit_of_isShut (h : l.isShut (l.laneOf task) = true) :
    l.submit task = .error ⟨.closed, task⟩ := by
  rw [isShut, Array.getElem?_eq_getElem (l.laneOf_lt task), Option.elim_some] at h
  unfold submit
  dsimp only
  rw [TaskQueue.push_of_closed h]

theorem take_of_tasks (h : l.tasks lane = []) : l.take lane = none := by
  cases ht : l.take lane with
  | none => rfl
  | some x => simp [(tasks_take ht).1] at h

theorem isDrained_iff : l.IsDrained ↔ ∀ lane, l.isShut lane = true ∧ l.tasks lane = [] := by
  constructor
  · intro h lane
    rw [isShut, tasks]
    cases hq : l.queues[lane]? with
    | none => exact ⟨rfl, rfl⟩
    | some q => exact TaskQueue.pop_eq_ended_iff.1 (h q (Array.mem_of_getElem? hq))
  · intro h q hq
    obtain ⟨lane, hl, rfl⟩ := Array.getElem_of_mem hq
    have := h lane
    rw [isShut, tasks, Array.getElem?_eq_getElem hl] at this
    exact TaskQueue.pop_eq_ended_iff.2 this

end Lanes

theorem Service.submit_eq_error_iff {s : Service} {task : Task} {r : Rejection Task} :
    s.submit task = .error r ↔ s.lanes.submit task = .error r := by
  rw [submit]
  cases s.lanes.submit task with
  | ok l => simp [Except.map]
  | error r' => simp [Except.map]

/-- A service, and what has become of the tasks that were submitted to it. Every list is in the
order in which it came about. -/
structure Workload where
  service : Service
  accepted : List Task
  returned : List (Rejection Task)
  handled : List Task

namespace Workload

/-- What producers, workers and a shutdown do. Any of them may come between two others. -/
inductive Operation
  | submit (task : Task)
  /-- The worker of a lane takes the oldest task, if there is one, and does it. -/
  | work (lane : Nat)
  | shut (lane : Nat)
deriving DecidableEq, Repr

def Operation.task? : Operation → Option Task
  | .submit task => some task
  | .work _ | .shut _ => none

def submitted (ops : List Operation) : List Task := ops.filterMap Operation.task?

theorem submitted_cons (op : Operation) (ops : List Operation) :
    submitted (op :: ops) = op.task?.toList ++ submitted ops := by
  cases op <;> rfl

def start (room : Room) (workers capacity : Nat) : Workload :=
  ⟨⟨room, .start workers capacity⟩, [], [], []⟩

def lanes (w : Workload) : Lanes := w.service.lanes

def perform (w : Workload) : Operation → Workload
  | .submit task =>
    match w.service.submit task with
    | .ok service => { w with service, accepted := w.accepted ++ [task] }
    | .error r => { w with returned := w.returned ++ [r] }
  | .work lane =>
    { w with
      service := (w.service.work lane).1
      handled := w.handled ++ ((w.lanes.take lane).map Prod.fst).toList }
  | .shut lane => { w with service := ⟨w.service.room, w.lanes.shut lane⟩ }

def run (w : Workload) (ops : List Operation) : Workload := ops.foldl perform w

/-- The turns in which each worker does what waits in its lane, one lane after the other. -/
def turns (l : Lanes) : List Nat :=
  (List.range l.count).flatMap fun lane => .replicate (l.waiting lane) lane

def shutdown (w : Workload) : List Operation :=
  (List.range w.lanes.count).map .shut ++ (turns w.lanes).map .work

def tasksOf (who : Option Nat) (ts : List Task) : List Task := ts.filter (·.connection? == who)

variable {w : Workload} {task : Task} {lane : Nat}

theorem run_append (w : Workload) (ops more : List Operation) :
    w.run (ops ++ more) = (w.run ops).run more := List.foldl_append

theorem perform_accepted {l : Lanes} (h : w.lanes.submit task = .ok l) :
    w.perform (.submit task) =
      { w with service := ⟨w.service.room, l⟩, accepted := w.accepted ++ [task] } := by
  have hs : w.service.submit task = .ok ⟨w.service.room, l⟩ := by
    rw [Service.submit, show w.service.lanes.submit task = .ok l from h]
    rfl
  rw [perform, hs]

theorem perform_returned {r : Rejection Task} (h : w.lanes.submit task = .error r) :
    w.perform (.submit task) = { w with returned := w.returned ++ [r] } := by
  rw [perform, Service.submit_eq_error_iff.2 h]

theorem perform_handled {l : Lanes} (h : w.lanes.take lane = some (task, l)) :
    w.perform (.work lane) =
      { w with
        service := ⟨(w.service.room.perform task).1, l⟩
        handled := w.handled ++ [task] } := by
  rw [perform, Service.work, show w.service.lanes.take lane = some (task, l) from h, h]
  rfl

theorem perform_idle (h : w.lanes.take lane = none) : w.perform (.work lane) = w := by
  rw [perform, Service.work, show w.service.lanes.take lane = none from h, h]
  simp

theorem perform_cases {motive : Operation → Workload → Prop} (w : Workload)
    (accepted : ∀ task l, w.lanes.submit task = .ok l → motive (.submit task)
      { w with service := ⟨w.service.room, l⟩, accepted := w.accepted ++ [task] })
    (returned : ∀ task r, w.lanes.submit task = .error r →
      motive (.submit task) { w with returned := w.returned ++ [r] })
    (handled : ∀ lane task l, w.lanes.take lane = some (task, l) → motive (.work lane)
      { w with
        service := ⟨(w.service.room.perform task).1, l⟩
        handled := w.handled ++ [task] })
    (idle : ∀ lane, w.lanes.take lane = none → motive (.work lane) w)
    (shut : ∀ lane, motive (.shut lane)
      { w with service := ⟨w.service.room, w.lanes.shut lane⟩ })
    (op : Operation) : motive op (w.perform op) := by
  cases op with
  | submit task =>
    cases h : w.lanes.submit task with
    | ok l => exact perform_accepted h ▸ accepted task l h
    | error r => exact perform_returned h ▸ returned task r h
  | work lane =>
    cases h : w.lanes.take lane with
    | none => exact (perform_idle h).symm ▸ idle lane h
    | some x => exact perform_handled h ▸ handled lane x.1 x.2 h
  | shut lane => exact shut lane

theorem run_induction {motive : Workload → Prop} (hs : ∀ w op, motive w → motive (w.perform op))
    (h : motive w) (ops : List Operation) : motive (w.run ops) := by
  induction ops generalizing w with
  | nil => exact h
  | cons op ops ih => exact ih (hs w op h)

/-- Lane by lane, what was accepted is what is done and, behind it, what waits. -/
def IsOrderly (w : Workload) : Prop :=
  ∀ lane, w.accepted.filter (w.lanes.laneOf · == lane) =
    w.handled.filter (w.lanes.laneOf · == lane) ++ w.lanes.tasks lane

theorem isOrderly_start (room : Room) (workers capacity : Nat) :
    (start room workers capacity).IsOrderly :=
  fun lane => (Lanes.tasks_start workers capacity lane).symm

theorem IsOrderly.laneOf_eq (h : w.IsOrderly) (ht : task ∈ w.lanes.tasks lane) :
    w.lanes.laneOf task = lane := by
  have hm : task ∈ w.accepted.filter (w.lanes.laneOf · == lane) := by
    rw [h lane]
    exact List.mem_append_right _ ht
  exact eq_of_beq (List.mem_filter.1 hm).2

theorem IsOrderly.perform (h : w.IsOrderly) (op : Operation) : (w.perform op).IsOrderly := by
  -- A task goes to the back of its own lane and is taken from the front of it, so every other lane
  -- keeps its three lists.
  refine perform_cases (motive := fun _ w' => w'.IsOrderly) w ?accepted (fun _ _ _ => h) ?handled
    (fun _ _ => h) ?shut op
  case accepted =>
    intro task l hl lane
    change (w.accepted ++ [task]).filter (l.laneOf · == lane) =
      w.handled.filter (l.laneOf · == lane) ++ l.tasks lane
    rw [Lanes.laneOf_eq (Lanes.count_submit hl), Lanes.tasks_submit hl, List.filter_append, h lane]
    by_cases hk : w.lanes.laneOf task = lane <;> simp [hk]
  case handled =>
    intro k task l hl lane
    obtain ⟨hk, ho⟩ := Lanes.tasks_take hl
    have hlane : w.lanes.laneOf task = k := h.laneOf_eq (hk ▸ List.mem_cons_self)
    change w.accepted.filter (l.laneOf · == lane) =
      (w.handled ++ [task]).filter (l.laneOf · == lane) ++ l.tasks lane
    rw [Lanes.laneOf_eq (Lanes.count_take hl), List.filter_append, h lane]
    by_cases he : k = lane
    · subst he
      simp [hk, hlane]
    · rw [ho lane (Ne.symm he)]
      simp [hlane, he]
  case shut =>
    intro k lane
    change w.accepted.filter ((w.lanes.shut k).laneOf · == lane) =
      w.handled.filter ((w.lanes.shut k).laneOf · == lane) ++ (w.lanes.shut k).tasks lane
    rw [Lanes.laneOf_eq (w.lanes.count_shut k), Lanes.tasks_shut]
    exact h lane

theorem IsOrderly.run (h : w.IsOrderly) (ops : List Operation) : (w.run ops).IsOrderly :=
  run_induction (fun _ op h => h.perform op) h ops

/-- All tasks of one connection share a lane, and so do the broadcasts. -/
theorem IsOrderly.exists_tasksOf (h : w.IsOrderly) (who : Option Nat) :
    ∃ lane, tasksOf who w.accepted = tasksOf who w.handled ++ tasksOf who (w.lanes.tasks lane) := by
  have hf : ∀ {t : Task} (ts : List Task), t.connection? = who →
      tasksOf who (ts.filter (w.lanes.laneOf · == w.lanes.laneOf t)) = tasksOf who ts := by
    intro t ts ht
    rw [tasksOf, List.filter_filter]
    apply List.filter_congr
    intro u _
    by_cases hu : u.connection? = who
    · simp [hu, Lanes.laneOf_congr (hu.trans ht.symm)]
    · simp [hu]
  -- Any task that they could have submitted tells their lane.
  let t : Task := who.elim (.broadcast []) .hangUp
  have ht : t.connection? = who := by cases who <;> rfl
  refine ⟨w.lanes.laneOf t, ?_⟩
  rw [← hf w.accepted ht, ← hf w.handled ht, h]
  exact List.filter_append ..

theorem IsOrderly.count_accepted (h : w.IsOrderly) (task : Task) :
    w.accepted.count task =
      w.handled.count task + (w.lanes.tasks (w.lanes.laneOf task)).count task := by
  have hc : ∀ ts : List Task,
      (ts.filter (w.lanes.laneOf · == w.lanes.laneOf task)).count task = ts.count task :=
    fun ts => List.count_filter BEq.rfl
  rw [← hc w.accepted, h, List.count_append, hc]

def after (room : Room) (ts : List Task) : Room := ts.foldl (fun r task => (r.perform task).1) room

theorem room_run {room : Room} (h : w.service.room = after room w.handled) (ops : List Operation) :
    (w.run ops).service.room = after room (w.run ops).handled := by
  refine run_induction (motive := fun w => w.service.room = after room w.handled) ?_ h ops
  intro w op h
  refine perform_cases (motive := fun _ w' => w'.service.room = after room w'.handled) w
    (fun _ _ _ => h) (fun _ _ _ => h) ?handled (fun _ _ => h) (fun _ => h) op
  case handled =>
    intro _ task l _
    change (w.service.room.perform task).1 = after room (w.handled ++ [task])
    rw [h, after, after, List.foldl_append]
    rfl

/-- Whatever is submitted is accepted or handed back, as it was. -/
theorem perm_run (w : Workload) (ops : List Operation) :
    ((w.run ops).accepted ++ (w.run ops).returned.map Rejection.item).Perm
      (w.accepted ++ w.returned.map Rejection.item ++ submitted ops) := by
  induction ops generalizing w with
  | nil => exact .of_eq (List.append_nil _).symm
  | cons op ops ih =>
    refine (ih (w.perform op)).trans ?_
    rw [submitted_cons, ← List.append_assoc]
    apply List.Perm.append_right
    refine perform_cases
      (motive := fun op w' => (w'.accepted ++ w'.returned.map Rejection.item).Perm
      (w.accepted ++ w.returned.map Rejection.item ++ op.task?.toList)) w ?accepted ?returned
      ?handled ?idle ?shut op
    case accepted =>
      intro task l _
      have hp : ([task] ++ w.returned.map Rejection.item).Perm
        (w.returned.map Rejection.item ++ [task]) := List.perm_append_comm
      simpa [Operation.task?] using hp.append_left w.accepted
    case returned =>
      intro task r hr
      rw [List.map_append, ← List.append_assoc]
      simp [Operation.task?, Lanes.item_of_submit hr]
    all_goals simp [Operation.task?]

theorem isShut_perform {lane : Nat} (h : w.lanes.isShut lane = true) (op : Operation) :
    (w.perform op).lanes.isShut lane = true := by
  refine perform_cases (motive := fun _ w' => w'.lanes.isShut lane = true) w ?accepted
    (fun _ _ _ => h) ?handled (fun _ _ => h) ?shut op
  case accepted => exact fun task l hl => (Lanes.isShut_submit hl lane).trans h
  case handled => exact fun k task l hl => (Lanes.isShut_take hl lane).trans h
  case shut =>
    intro k
    change (w.lanes.shut k).isShut lane = true
    rw [Lanes.isShut_shut, h, Bool.or_true]

theorem run_of_isDrained (h : w.lanes.IsDrained) (ops : List Operation) :
    (w.run ops).lanes.IsDrained ∧ (w.run ops).accepted = w.accepted ∧
      (w.run ops).handled = w.handled := by
  refine run_induction (motive := fun w' => w'.lanes.IsDrained ∧ w'.accepted = w.accepted ∧
    w'.handled = w.handled) ?_ ⟨h, rfl, rfl⟩ ops
  rintro w' op ⟨hd, ha, hh⟩
  have hd' := Lanes.isDrained_iff.1 hd
  refine perform_cases (motive := fun _ v => v.lanes.IsDrained ∧ v.accepted = w.accepted ∧
    v.handled = w.handled) w' ?accepted (fun _ _ _ => ⟨hd, ha, hh⟩) ?handled
    (fun _ _ => ⟨hd, ha, hh⟩) ?shut op
  case accepted =>
    intro task l hl
    rw [Lanes.submit_of_isShut (hd' _).1] at hl
    cases hl
  case handled =>
    intro lane task l hl
    rw [Lanes.take_of_tasks (hd' lane).2] at hl
    cases hl
  case shut =>
    intro k
    refine ⟨Lanes.isDrained_iff.2 fun lane => ?_, ha, hh⟩
    change (w'.lanes.shut k).isShut lane = true ∧ (w'.lanes.shut k).tasks lane = []
    rw [Lanes.isShut_shut, Lanes.tasks_shut, (hd' lane).1, Bool.or_true]
    exact ⟨rfl, (hd' lane).2⟩

theorem lanes_run_shut (ks : List Nat) (w : Workload) :
    (w.run (ks.map .shut)).lanes = ks.foldl Lanes.shut w.lanes := by
  induction ks generalizing w with
  | nil => rfl
  | cons k ks ih => exact ih (w.perform (.shut k))

theorem tasks_work (w : Workload) (k lane : Nat) :
    (w.perform (.work k)).lanes.tasks lane =
      if k = lane then (w.lanes.tasks lane).tail else w.lanes.tasks lane := by
  cases hk : w.lanes.take k with
  | none =>
    rw [perform_idle hk]
    split
    · rename_i he
      subst he
      cases ht : w.lanes.tasks k with
      | nil => rfl
      | cons task rest =>
        obtain ⟨l, hl⟩ := Lanes.exists_take ht
        rw [hk] at hl
        cases hl
    · rfl
  | some x =>
    obtain ⟨hx, ho⟩ := Lanes.tasks_take hk
    rw [perform_handled hk]
    split
    · rename_i he
      subst he
      rw [hx]
      rfl
    · rename_i he
      exact ho lane (Ne.symm he)

theorem tasks_run_work (ks : List Nat) (w : Workload) (lane : Nat) :
    (w.run (ks.map .work)).lanes.tasks lane = (w.lanes.tasks lane).drop (ks.count lane) := by
  induction ks generalizing w with
  | nil => rfl
  | cons k ks ih =>
    rw [show w.run ((k :: ks).map .work) = (w.perform (.work k)).run (ks.map .work) from rfl, ih,
      tasks_work, List.count_cons]
    by_cases hk : k = lane
    · simp [hk, List.drop_tail]
    · simp [hk]

theorem waiting_le_count_turns (l : Lanes) (lane : Nat) :
    (l.tasks lane).length ≤ (turns l).count lane := by
  by_cases hl : lane < l.count
  · have hs : (List.replicate (l.waiting lane) lane).Sublist (turns l) := by
      rw [turns, List.flatMap_def]
      exact List.sublist_flatten_of_mem (List.mem_map.2 ⟨lane, List.mem_range.2 hl, rfl⟩)
    have hc := hs.count_le lane
    rwa [List.count_replicate_self, Lanes.waiting_eq] at hc
  · rw [Lanes.tasks, Array.getElem?_eq_none (Nat.le_of_not_lt hl)]
    exact Nat.zero_le _

/-- A shutdown drains the lanes, whatever was in them. -/
theorem isDrained_shutdown (w : Workload) : (w.run w.shutdown).lanes.IsDrained := by
  rw [shutdown, run_append, Lanes.isDrained_iff]
  intro lane
  have hl : (w.run ((List.range w.lanes.count).map .shut)).lanes = w.lanes.close := by
    rw [lanes_run_shut, Lanes.foldl_shut]
  constructor
  · refine run_induction (motive := fun w => w.lanes.isShut lane = true)
      (fun _ op h => isShut_perform h op) ?_ _
    rw [hl, Lanes.isShut, Lanes.close, Array.getElem?_map]
    cases w.lanes.queues[lane]? <;> rfl
  · rw [tasks_run_work, hl, Lanes.tasks_close]
    exact List.drop_eq_nil_of_le (waiting_le_count_turns w.lanes lane)

theorem IsOrderly.handled_of_isDrained (h : w.IsOrderly) (hd : w.lanes.IsDrained) :
    w.handled.Perm w.accepted ∧ ∀ who, tasksOf who w.handled = tasksOf who w.accepted := by
  have ht := fun lane => (Lanes.isDrained_iff.1 hd lane).2
  constructor
  · rw [List.perm_iff_count]
    intro task
    rw [h.count_accepted, ht, List.count_nil, Nat.add_zero]
  · intro who
    obtain ⟨lane, hl⟩ := h.exists_tasksOf who
    rw [hl, ht lane]
    exact (List.append_nil _).symm

/-- Whatever comes between the submissions, the turns of the workers and the closing of the lanes:
of each connection, and of the broadcasts, the first tasks that were accepted are done, in their
order. What is refused comes back as it was. Once the lanes are drained, which a shutdown can always
come to, all that was accepted is done, each task once, and nothing is accepted any more. -/
theorem handled_in_order (room : Room) (workers capacity : Nat) (ops : List Operation) :
    let w := (start room workers capacity).run ops
    (∀ who, tasksOf who w.handled <+: tasksOf who w.accepted) ∧
    (∀ task, w.accepted.count task =
      w.handled.count task + (w.lanes.tasks (w.lanes.laneOf task)).count task) ∧
    w.service.room = after room w.handled ∧
    (w.accepted ++ w.returned.map Rejection.item).Perm (submitted ops) ∧
    (∀ task r, w.service.submit task = .error r → r.item = task ∧
      w.perform (.submit task) = { w with returned := w.returned ++ [r] }) ∧
    (w.run w.shutdown).lanes.IsDrained ∧
    (w.lanes.IsDrained →
      w.handled.Perm w.accepted ∧
      (∀ who, tasksOf who w.handled = tasksOf who w.accepted) ∧
      ∀ more, (w.run more).accepted = w.accepted ∧ (w.run more).handled = w.handled ∧
        ∀ task, (w.run more).service.submit task = .error ⟨.closed, task⟩) := by
  intro w
  have h : w.IsOrderly := (isOrderly_start room workers capacity).run ops
  refine ⟨fun who => ?order, h.count_accepted, room_run rfl ops, perm_run _ ops, ?refused,
    isDrained_shutdown w, fun hd => ?drained⟩
  case order =>
    obtain ⟨lane, hl⟩ := h.exists_tasksOf who
    exact ⟨_, hl.symm⟩
  case refused =>
    intro task r hr
    have hl := Service.submit_eq_error_iff.1 hr
    exact ⟨Lanes.item_of_submit hl, perform_returned hl⟩
  case drained =>
    refine ⟨(h.handled_of_isDrained hd).1, (h.handled_of_isDrained hd).2, fun more => ?_⟩
    obtain ⟨hd', ha, hh⟩ := run_of_isDrained hd more
    refine ⟨ha, hh, fun task => ?_⟩
    exact Service.submit_eq_error_iff.2 (Lanes.submit_of_isShut (Lanes.isDrained_iff.1 hd' _).1)

/-- Two tasks come for a lane that has room for one, and one more comes when that lane is closed. -/
theorem handled_in_order_one_slot :
    let canvas : Canvas := ⟨2, 1, .replicate 2 Palette.white, .replicate 2 none, 0, rfl, rfl,
      fun _ hc => (Array.mem_replicate.1 hc).2 ▸ Palette.has_white, by decide⟩
    let w := (start (.new canvas 1 1024 4096 none) 2 1).run
      [.submit (.hangUp 2), .submit (.hangUp 4), .submit (.data 3 [0]), .work 1, .shut 0,
        .submit (.broadcast []), .shut 1, .work 0]
    w.returned = [⟨.full, .hangUp 4⟩, ⟨.closed, .broadcast []⟩] ∧
      w.handled = [.data 3 [0], .hangUp 2] ∧ w.lanes.IsDrained ∧ w.handled.Perm w.accepted := by
  intro canvas w
  have hd : w.lanes.IsDrained := by decide +kernel
  have h := (handled_in_order (.new canvas 1 1024 4096 none) 2 1 [.submit (.hangUp 2),
    .submit (.hangUp 4), .submit (.data 3 [0]), .work 1, .shut 0, .submit (.broadcast []), .shut 1,
    .work 0]).2.2.2.2.2.2 hd
  exact ⟨by decide +kernel, by decide +kernel, hd, h.1⟩

end Workload
end SharedCanvas
