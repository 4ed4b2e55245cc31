import SharedCanvas.Connection.Socket
import SharedCanvas.TaskQueue

namespace SharedCanvas

inductive Task
  | connect (id : Nat) (peer : String) (socket : Socket)
  | data (id : Nat) (bytes : Bytes)
  /-- The peer has closed its side. -/
  | hangUp (id : Nat)
  | broadcast (payload : Bytes)
deriving DecidableEq, Repr

namespace Task

def connection? : Task → Option Nat
  | connect id _ _ | data id _ | hangUp id => some id
  | broadcast _ => none

def kind : Task → String
  | connect .. => "new-connection"
  | data .. => "data"
  | hangUp _ => "close-connection"
  | broadcast _ => "broadcast"

end Task

def laneFor (id lanes : Nat) : Nat := id % max lanes 1

theorem laneFor_lt (id lanes : Nat) (h : 0 < lanes) : laneFor id lanes < lanes := by
  have : max lanes 1 = lanes := by omega
  rw [laneFor, this]
  exact Nat.mod_lt _ h

structure Lanes where
  queues : Array (TaskQueue Task)
  nonempty : 0 < queues.size

namespace Lanes

theorem size_replicate_pos {α : Type} (workers : Nat) (x : α) :
    0 < (Array.replicate (max workers 1) x).size := by
  rw [Array.size_replicate]
  omega

def start (workers capacity : Nat) : Lanes where
  queues := .replicate (max workers 1) (.new capacity)
  nonempty := size_replicate_pos workers _

def count (l : Lanes) : Nat := l.queues.size

/-- Broadcasts go to the first lane. -/
def laneOf (l : Lanes) (task : Task) : Nat :=
  match task.connection? with
  | some id => laneFor id l.count
  | none => 0

theorem laneOf_lt (l : Lanes) (task : Task) : l.laneOf task < l.queues.size := by
  unfold laneOf
  split
  · exact laneFor_lt _ _ l.nonempty
  · exact l.nonempty

/-- Puts the task at the end of its lane, or hands it back. -/
def submit (l : Lanes) (task : Task) : Except (Rejection Task) Lanes :=
  have h := l.laneOf_lt task
  match l.queues[l.laneOf task].push task with
  | .error rejection => .error rejection
  | .ok q =>
    .ok { queues := l.queues.set (l.laneOf task) q, nonempty := by simpa using l.nonempty }

def take (l : Lanes) (lane : Nat) : Option (Task × Lanes) :=
  if h : lane < l.queues.size then
    match l.queues[lane].pop with
    | .item task q =>
      some (task, { queues := l.queues.set lane q, nonempty := by simpa using l.nonempty })
    | _ => none
  else none

/-- Takes no more tasks; those that are queued can still be done. -/
def close (l : Lanes) : Lanes where
  queues := l.queues.map TaskQueue.close
  nonempty := by simpa using l.nonempty

def waiting (l : Lanes) (lane : Nat) : Nat := (l.queues[lane]?.map TaskQueue.length).getD 0

end Lanes
end SharedCanvas
