import SharedCanvas.TaskQueue

namespace SharedCanvas.TaskQueue

variable {α : Type} {q q' : TaskQueue α} {a : α} {r : Rejection α}

theorem fields_of_push (h : q.push a = .ok q') :
    q'.items = q.items ++ [a] ∧ q'.closed = q.closed ∧ q'.capacity = q.capacity := by
  unfold push at h
  split at h
  · cases h
  · split at h
    · rw [← Except.ok.inj h]
      exact ⟨rfl, rfl, rfl⟩
    · cases h

theorem items_of_push (h : q.push a = .ok q') : q'.items = q.items ++ [a] := (fields_of_push h).1

theorem closed_of_push (h : q.push a = .ok q') : q'.closed = q.closed := (fields_of_push h).2.1

/-- A queue refuses an item if it is closed, and else if it is full; the item comes back. -/
theorem push_eq_error_iff : q.push a = .error r ↔
    (r = ⟨.closed, a⟩ ∧ q.closed = true) ∨
      (r = ⟨.full, a⟩ ∧ q.closed = false ∧ q.length = q.capacity) := by
  have hl := q.length_items
  unfold push length
  split
  · rename_i hc
    simp [hc, eq_comm]
  · rename_i hc
    split
    · rename_i hlt
      simp [hc, Nat.ne_of_lt hlt]
    · rename_i hge
      simp [hc, Nat.le_antisymm hl (Nat.le_of_not_lt hge), eq_comm]

theorem item_of_push (h : q.push a = .error r) : r.item = a := by
  rcases push_eq_error_iff.1 h with ⟨rfl, -⟩ | ⟨rfl, -⟩ <;> rfl

theorem push_of_closed (h : q.closed = true) : q.push a = .error ⟨.closed, a⟩ :=
  push_eq_error_iff.2 (.inl ⟨rfl, h⟩)

theorem exists_pop {rest : List α} (h : q.items = a :: rest) : ∃ q', q.pop = .item a q' := by
  unfold pop
  split
  · rename_i b bs hb
    have he := hb.symm.trans h
    rw [List.cons.injEq] at he
    obtain ⟨rfl, -⟩ := he
    exact ⟨_, rfl⟩
  · rename_i hb
    rw [hb] at h
    simp at h

theorem fields_of_pop (h : q.pop = .item a q') :
    q.items = a :: q'.items ∧ q'.closed = q.closed ∧ q'.capacity = q.capacity := by
  unfold pop at h
  split at h
  · rename_i hq
    obtain ⟨rfl, rfl⟩ := Popped.item.inj h
    exact ⟨hq, rfl, rfl⟩
  · split at h <;> cases h

theorem items_of_pop (h : q.pop = .item a q') : q.items = a :: q'.items := (fields_of_pop h).1

theorem closed_of_pop (h : q.pop = .item a q') : q'.closed = q.closed := (fields_of_pop h).2.1

theorem pop_eq_ended_iff : q.pop = .ended ↔ q.closed = true ∧ q.items = [] := by
  unfold pop
  split
  · rename_i hq
    simp [hq]
  · rename_i hq
    by_cases hc : q.closed = true <;> simp [hq, hc]

theorem pop_eq_blocked_iff : q.pop = .blocked ↔ q.items = [] ∧ q.closed = false := by
  unfold pop
  split
  · rename_i hq
    simp [hq]
  · rename_i hq
    by_cases hc : q.closed = true <;> simp [hq, hc]

/-- What is done with a queue. -/
inductive Operation (α : Type) where
  | push (a : α)
  | pop
  | close
deriving DecidableEq, Repr

/-- What an operation comes to. -/
inductive Answer (α : Type) where
  /-- The item is in the queue, or the queue is closed. -/
  | done
  | refused (r : Rejection α)
  | item (a : α)
  /-- There will be no more items. -/
  | ended
  /-- There is no item yet. -/
  | blocked
deriving DecidableEq, Repr

def perform (q : TaskQueue α) : Operation α → Answer α × TaskQueue α
  | .push a =>
    match q.push a with
    | .ok q' => (.done, q')
    | .error r => (.refused r, q)
  | .pop =>
    match q.pop with
    | .item a q' => (.item a, q')
    | .ended => (.ended, q)
    | .blocked => (.blocked, q)
  | .close => (.done, q.close)

def run (q : TaskQueue α) (ops : List (Operation α)) : TaskQueue α :=
  ops.foldl (fun q op => (q.perform op).2) q

/-- Every operation with its answer, in their order. -/
def history (q : TaskQueue α) : List (Operation α) → List (Operation α × Answer α)
  | [] => []
  | op :: ops => (op, (q.perform op).1) :: history (q.perform op).2 ops

def accepted? : Operation α × Answer α → Option α
  | (.push a, .done) => some a
  | _ => none

def popped? : Operation α × Answer α → Option α
  | (.pop, .item a) => some a
  | _ => none

def accepted (past : List (Operation α × Answer α)) : List α := past.filterMap accepted?

def popped (past : List (Operation α × Answer α)) : List α := past.filterMap popped?

theorem perform_cases {motive : Operation α → Answer α × TaskQueue α → Prop} (q : TaskQueue α)
    (accepted : ∀ a q', q.push a = .ok q' → motive (.push a) (.done, q'))
    (refused : ∀ a r, q.push a = .error r → motive (.push a) (.refused r, q))
    (item : ∀ a q', q.pop = .item a q' → motive .pop (.item a, q'))
    (ended : q.pop = .ended → motive .pop (.ended, q))
    (blocked : q.pop = .blocked → motive .pop (.blocked, q))
    (close : motive .close (.done, q.close)) (op : Operation α) : motive op (q.perform op) := by
  cases op with
  | push a =>
    rw [perform]
    split
    · rename_i h
      exact accepted a _ h
    · rename_i h
      exact refused a _ h
  | pop =>
    rw [perform]
    split
    · rename_i h
      exact item _ _ h
    · rename_i h
      exact ended h
    · rename_i h
      exact blocked h
  | close => exact close

theorem items_perform (q : TaskQueue α) (op : Operation α) :
    (popped? (op, (q.perform op).1)).toList ++ (q.perform op).2.items =
      q.items ++ (accepted? (op, (q.perform op).1)).toList := by
  refine perform_cases (motive := fun op x =>
    (popped? (op, x.1)).toList ++ x.2.items = q.items ++ (accepted? (op, x.1)).toList) q
    ?accepted ?refused ?item ?ended ?blocked ?close op
  case accepted => exact fun a q' h => items_of_push h
  case item =>
    intro a q' h
    rw [items_of_pop h]
    exact (List.append_nil _).symm
  all_goals simp [accepted?, popped?, close]

theorem capacity_perform (q : TaskQueue α) (op : Operation α) :
    (q.perform op).2.capacity = q.capacity :=
  perform_cases (motive := fun _ x => x.2.capacity = q.capacity) q
    (fun _ _ h => (fields_of_push h).2.2) (fun _ _ _ => rfl) (fun _ _ h => (fields_of_pop h).2.2)
    (fun _ => rfl) (fun _ => rfl) rfl op

theorem closed_perform (q : TaskQueue α) (op : Operation α) :
    (q.perform op).2.closed = true ↔ q.closed = true ∨ op = .close := by
  refine perform_cases (motive := fun op x => x.2.closed = true ↔ q.closed = true ∨ op = .close) q
    ?accepted ?refused ?item ?ended ?blocked ?close op
  case accepted => intro a q' h; simp [closed_of_push h]
  case item => intro a q' h; simp [closed_of_pop h]
  all_goals simp [close]

theorem run_cons (q : TaskQueue α) (op : Operation α) (ops : List (Operation α)) :
    q.run (op :: ops) = (q.perform op).2.run ops := rfl

theorem run_concat (q : TaskQueue α) (ops : List (Operation α)) (op : Operation α) :
    q.run (ops ++ [op]) = ((q.run ops).perform op).2 := by
  rw [run, List.foldl_append]
  rfl

theorem capacity_run (q : TaskQueue α) (ops : List (Operation α)) :
    (q.run ops).capacity = q.capacity := by
  induction ops generalizing q with
  | nil => rfl
  | cons op ops ih => rw [run_cons, ih, capacity_perform]

theorem closed_run (q : TaskQueue α) (ops : List (Operation α)) :
    (q.run ops).closed = true ↔ q.closed = true ∨ .close ∈ ops := by
  induction ops generalizing q with
  | nil => simp [run]
  | cons op ops ih => rw [run_cons, ih, closed_perform, List.mem_cons, or_assoc, eq_comm (a := op)]

/-- What was taken and what is in the queue is what was in it before and what was accepted. -/
theorem popped_append_items (q : TaskQueue α) (ops : List (Operation α)) :
    popped (q.history ops) ++ (q.run ops).items = q.items ++ accepted (q.history ops) := by
  induction ops generalizing q with
  | nil => simp [history, popped, accepted, run]
  | cons op ops ih =>
    have hp : popped (q.history (op :: ops)) = (popped? (op, (q.perform op).1)).toList ++
        popped ((q.perform op).2.history ops) := by
      rw [popped, history, List.filterMap_cons]
      cases popped? (op, (q.perform op).1) <;> rfl
    have ha : accepted (q.history (op :: ops)) = (accepted? (op, (q.perform op).1)).toList ++
        accepted ((q.perform op).2.history ops) := by
      rw [accepted, history, List.filterMap_cons]
      cases accepted? (op, (q.perform op).1) <;> rfl
    rw [hp, ha, run_cons, List.append_assoc, ih, ← List.append_assoc, items_perform,
      List.append_assoc]

/-- Whatever is done with a queue, in any order: it never holds more than its bound; what was taken
and what it holds are the accepted items, in their order; it is closed once it has been closed. An
item is refused as closed exactly if the queue is closed, and else as full exactly if it holds as
much as it can; the item comes back and nothing changes. The end is told exactly if the queue is
closed and everything accepted was taken, and there is nothing yet exactly if it is empty and
open. -/
theorem first_in_first_out (capacity : Nat) (ops : List (Operation α)) :
    let q := (new capacity : TaskQueue α).run ops
    let past := (new capacity).history ops
    q.length ≤ max capacity 1 ∧
    popped past ++ q.items = accepted past ∧
    (q.closed = true ↔ .close ∈ ops) ∧
    (∀ a r, q.push a = .error r ↔
      (r = ⟨.closed, a⟩ ∧ q.closed = true) ∨
        (r = ⟨.full, a⟩ ∧ q.closed = false ∧ q.length = max capacity 1)) ∧
    (∀ a r, q.push a = .error r → (new capacity).run (ops ++ [.push a]) = q) ∧
    (q.pop = .ended ↔ q.closed = true ∧ popped past = accepted past) ∧
    (q.pop = .blocked ↔ q.length = 0 ∧ q.closed = false) := by
  intro q past
  have hcap : q.capacity = max capacity 1 := capacity_run _ ops
  have hitems : popped past ++ q.items = accepted past := popped_append_items _ ops
  refine ⟨hcap ▸ q.length_items, hitems, ?closed, ?refused, ?unchanged, ?ended, ?blocked⟩
  case closed =>
    rw [closed_run]
    exact or_iff_right Bool.false_ne_true
  case refused => exact fun a r => hcap ▸ push_eq_error_iff
  case unchanged =>
    intro a r h
    rw [run_concat, perform, show (run (new capacity) ops).push a = .error r from h]
  case ended => rw [pop_eq_ended_iff, ← hitems, List.self_eq_append_right]
  case blocked => rw [pop_eq_blocked_iff, length, List.length_eq_zero_iff]

/-- One item waits when the queue is closed: it still comes out, and then the end is told. -/
example : popped ((new 1).history [.push 'a', .push 'b', .close, .push 'c', .pop, .pop]) =
    ['a'] := by
  decide

end SharedCanvas.TaskQueue
