import SharedCanvas.Event
import SharedCanvas.Storage.Saves

namespace SharedCanvas

/-- How far the save of a period has come. -/
inductive SaveStage
  | waiting
  /-- The canvas had another version than the one that was saved last. -/
  | noted (version : Nat)
  | copied (version : Nat) (picture : Snapshot)
  /-- A picture of so many cells is in the draft. -/
  | drafted (version cells : Nat)
deriving DecidableEq, Repr

/-- The periodic save of a canvas that has changed. -/
structure Saver where
  file : SnapshotFile
  savedVersion : Nat
  stage : SaveStage
deriving DecidableEq, Repr

namespace Saver

def start (file : SnapshotFile) (c : Canvas) : Saver := ⟨file, c.version, .waiting⟩

/-- A period begins; it is over if nothing has changed. -/
def note (s : Saver) (c : Canvas) : Saver :=
  match s.stage with
  | .waiting => if c.version = s.savedVersion then s else { s with stage := .noted c.version }
  | _ => s

def copy (s : Saver) (c : Canvas) : Saver :=
  match s.stage with
  | .noted version => { s with stage := .copied version c.snapshot }
  | _ => s

/-- A save has ended. If it has failed, it is tried again in the next period. -/
def settle (s : Saver) (version cells : Nat) : Except (List String) Unit → Saver × List Event
  | .ok () => ({ s with savedVersion := version, stage := .waiting }, [.saved cells])
  | .error chain => ({ s with stage := .waiting }, [.unsaved chain])

def draft (s : Saver) (fs : FileSystem) : Saver × FileSystem × List Event :=
  match s.stage with
  | .copied version picture =>
    match s.file.writeDraft picture fs with
    | .ok fs => ({ s with stage := .drafted version picture.pixels.length }, fs, [])
    | .error e =>
      let (s, events) := s.settle version picture.pixels.length (.error e.chain)
      (s, fs, events)
  | _ => (s, fs, [])

def publish (s : Saver) (fs : FileSystem) : Saver × FileSystem × List Event :=
  match s.stage with
  | .drafted version cells =>
    match s.file.publish fs with
    | .ok fs =>
      let (s, events) := s.settle version cells (.ok ())
      (s, fs, events)
    | .error e =>
      let (s, events) := s.settle version cells (.error e.chain)
      (s, fs, events)
  | _ => (s, fs, [])

def finish (s : Saver) (fs : FileSystem) : Saver × FileSystem × List Event :=
  let (s, fs, events) := s.draft fs
  let (s, fs, more) := s.publish fs
  (s, fs, events ++ more)

def ended (s : Saver) (result : Except (List String) Unit) : Saver × List Event :=
  match s.stage with
  | .copied version picture => s.settle version picture.pixels.length result
  | _ => (s, [])

def period (s : Saver) (c : Canvas) (fs : FileSystem) : Saver × FileSystem × List Event :=
  ((s.note c).copy c).finish fs

/-- The stage at which the save of a period is left when the timer is stopped. -/
def left (s : Saver) : Stage :=
  match s.stage with
  | .waiting => .ended (.ok ())
  | .noted _ | .copied .. => .called
  | .drafted .. => .drafted

/-- What a save writes that is left at its stage. One that has not copied the canvas yet copies it
as it is in the end. -/
def leftPicture (s : Saver) (c : Canvas) : Snapshot :=
  match s.stage with
  | .copied _ picture => picture
  | _ => c.snapshot

/-- What a save comes to does not depend on when its halves are done. -/
theorem finish_of_copied {s : Saver} {version : Nat} {picture : Snapshot}
    (h : s.stage = .copied version picture) (fs : FileSystem) :
    s.finish fs = (let result := (s.file.save picture fs).2.mapError StoreError.chain
      ((s.ended result).1, (s.file.save picture fs).1, (s.ended result).2)) := by
  simp only [finish, draft, ended, SnapshotFile.save, h]
  cases s.file.writeDraft picture fs with
  | error e => rfl
  | ok drafted =>
    simp only [publish]
    cases s.file.publish drafted with
    | error e => rfl
    | ok files => rfl

end Saver
end SharedCanvas
