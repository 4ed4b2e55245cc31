namespace SharedCanvas

inductive QueueFault
  | full
  | closed
deriving DecidableEq, Repr

def QueueFault.message : QueueFault → String
  | .full => "task queue is full"
  | .closed => "task queue is closed"

/-- What a queue has not taken, and why. -/
structure Rejection (α : Type) where
  fault : QueueFault
  item : α
deriving DecidableEq, Repr

structure TaskQueue (α : Type) where
  /-- Oldest first. -/
  items : List α
  closed : Bool
  capacity : Nat
  capacity_pos : 0 < capacity
  length_items : items.length ≤ capacity

/-- What taking from a queue comes to. -/
inductive Popped (α : Type) where
  | item (a : α) (rest : TaskQueue α)
  /-- Closed, and nothing is left. -/
  | ended
  /-- Nothing is there yet. -/
  | blocked

namespace TaskQueue

variable {α : Type}

def new (capacity : Nat) : TaskQueue α where
  items := []
  closed := false
  capacity := max capacity 1
  capacity_pos := by omega
  length_items := by simp

def length (q : TaskQueue α) : Nat := q.items.length

/-- The queue with the item behind the others, or the item back. A closed queue refuses as closed
even if it is full as well. -/
def push (q : TaskQueue α) (a : α) : Except (Rejection α) (TaskQueue α) :=
  if q.closed then .error ⟨.closed, a⟩
  else if h : q.items.length < q.capacity then
    .ok { q with
      items := q.items ++ [a]
      length_items := by simp only [List.length_append, List.length_singleton]; omega }
  else .error ⟨.full, a⟩

def pop (q : TaskQueue α) : Popped α :=
  match h : q.items with
  | a :: rest =>
    .item a { q with
      items := rest
      length_items := by have := q.length_items; simp only [h, List.length_cons] at this; omega }
  | [] => if q.closed then .ended else .blocked

/-- What is queued can still be taken. -/
def close (q : TaskQueue α) : TaskQueue α := { q with closed := true }

end TaskQueue
end SharedCanvas
