import SharedCanvas.Storage.SnapshotFile

namespace SharedCanvas

/-- How far one of several saves has come. -/
inductive Stage
  | waiting
  | called
  /-- It has written its draft. -/
  | drafted
  | ended (result : Except StoreError Unit)

namespace Stage

def isUnderWay : Stage → Bool
  | called | drafted => true
  | waiting | ended _ => false

def rank : Stage → Nat
  | waiting => 0
  | called => 1
  | drafted => 2
  | ended _ => 3

end Stage

/-- Several saves to one file. -/
structure Saves (ι : Type) where
  files : FileSystem
  stage : ι → Stage

namespace Saves
open SnapshotFile

variable {ι : Type} [DecidableEq ι]

def start (fs : FileSystem) : Saves ι := ⟨fs, fun _ => .waiting⟩

def put (s : Saves ι) (i : ι) (files : FileSystem) (stage : Stage) : Saves ι :=
  ⟨files, fun j => if j = i then stage else s.stage j⟩

/-- The next step of one save: it is called, it writes its draft, it moves the draft. All share one
draft, so a save can move the draft of another, and that one then finds none. -/
def step (f : SnapshotFile) (picture : ι → Snapshot) (s : Saves ι) (i : ι) : Saves ι :=
  match s.stage i with
  | .waiting => s.put i s.files .called
  | .called =>
    match f.writeDraft (picture i) s.files with
    | .error e => s.put i s.files (.ended (.error e))
    | .ok files => s.put i files .drafted
  | .drafted =>
    match f.publish s.files with
    | .error e => s.put i s.files (.ended (.error e))
    | .ok files => s.put i files (.ended (.ok ()))
  | .ended _ => s

def run (f : SnapshotFile) (picture : ι → Snapshot) (s : Saves ι) (order : List ι) : Saves ι :=
  order.foldl (step f picture) s

@[simp] theorem files_put (s : Saves ι) (i : ι) (files : FileSystem) (stage : Stage) :
    (s.put i files stage).files = files := rfl

theorem stage_put (s : Saves ι) (i j : ι) (files : FileSystem) (stage : Stage) :
    (s.put i files stage).stage j = if j = i then stage else s.stage j := rfl

@[simp] theorem stage_put_self (s : Saves ι) (i : ι) (files : FileSystem) (stage : Stage) :
    (s.put i files stage).stage i = stage := if_pos rfl

theorem stage_put_of_ne {i j : ι} (h : j ≠ i) (s : Saves ι) (files : FileSystem) (stage : Stage) :
    (s.put i files stage).stage j = s.stage j := if_neg h

theorem put_put (s : Saves ι) (i : ι) (files files' : FileSystem) (a b : Stage) :
    (s.put i files a).put i files' b = s.put i files' b := by
  simp only [put, mk.injEq, true_and]
  funext j
  split <;> rfl

end Saves
end SharedCanvas
