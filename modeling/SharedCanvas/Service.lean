import SharedCanvas.Room

namespace SharedCanvas

structure Service where
  room : Room
  lanes : Lanes

namespace Service

def submit (s : Service) (task : Task) : Except (Rejection Task) Service :=
  (s.lanes.submit task).map fun lanes => { s with lanes }

/-- A task comes. There is no waiting for a lane that is full. -/
def offer (s : Service) (task : Task) : Service × List Event :=
  match s.submit task with
  | .ok s => (s, [])
  | .error rejection =>
    let (room, events) := s.room.turnAway rejection
    ({ s with room }, events)

def work (s : Service) (lane : Nat) : Service × List Event :=
  match s.lanes.take lane with
  | none => (s, [])
  | some (task, lanes) =>
    let (room, events) := s.room.perform task
    (⟨room, lanes⟩, events)

def workTimes (s : Service) (lane : Nat) : Nat → Service × List Event
  | 0 => (s, [])
  | n + 1 =>
    let (s, events) := s.work lane
    let (s, more) := s.workTimes lane n
    (s, events ++ more)

def workAll (s : Service) : Service × List Event :=
  (List.range s.lanes.count).foldl (fun (s, events) lane =>
    let (s, more) := s.workTimes lane (s.lanes.waiting lane)
    (s, events ++ more)) (s, [])

/-- Announces what has changed, and does the work. The number of pixels is returned too. -/
def tick (s : Service) : Service × Nat × List Event :=
  let (room, pixels) := s.room.drain
  let (room, lanes, count, events) := room.handOff s.lanes pixels
  let (s, more) := workAll ⟨room, lanes⟩
  (s, count, events ++ more)

/-- A task comes, and all that waits is done. -/
def perform (s : Service) (task : Task) : Service × List Event :=
  let (s, events) := s.offer task
  let (s, more) := s.workAll
  (s, events ++ more)

end Service
end SharedCanvas
