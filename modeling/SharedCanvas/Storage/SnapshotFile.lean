import SharedCanvas.Canvas.Basic
import SharedCanvas.Canvas.Json
import SharedCanvas.Storage.FileSystem

namespace SharedCanvas

inductive StoreError
  | fault (path : Bytes) (fault : FileFault)
  | json (fault : Json.Fault)
  | invalid (e : CanvasError)
deriving DecidableEq, Repr

def StoreError.onPath (path : Bytes) (text : String) : String :=
  "snapshot I/O on " ++ (Bytes.toString? path).getD "" ++ ": " ++ text

def StoreError.message : StoreError → String
  | .fault path f => onPath path f.message
  | .json _ => "snapshot is not valid JSON"
  | .invalid e => "snapshot is inconsistent: " ++ e.message

def StoreError.chain : StoreError → List String
  | .fault path f => [message (.fault path f), f.message]
  | .json e => [message (.json e)]
  | .invalid e => [message (.invalid e), e.message]

structure SnapshotFile where
  path : Bytes
deriving DecidableEq, Repr

namespace SnapshotFile

/-- The path beside the file that a save writes first. -/
def draftPath (f : SnapshotFile) : Bytes :=
  let name := (Path.fileName? f.path).getD (Bytes.ofString "canvas_snapshot")
  Path.withFileName f.path (name ++ Bytes.ofString ".tmp")

def decode (content : Bytes) : Except StoreError Snapshot :=
  match Snapshot.ofJson content with
  | .error e => .error (.json e)
  | .ok s =>
    match s.check with
    | .error e => .error (.invalid e)
    | .ok () => .ok s

/-- The picture in the file, `none` if there is no file. -/
def load (f : SnapshotFile) (fs : FileSystem) : Except StoreError (Option Snapshot) :=
  match fs.read f.path with
  | .error .notFound => .ok none
  | .error e => .error (.fault f.path e)
  | .ok content => (decode content).map some

def writeDraft (f : SnapshotFile) (s : Snapshot) (fs : FileSystem) :
    Except StoreError FileSystem :=
  (fs.write f.draftPath s.toJson).mapError (.fault f.draftPath)

def publish (f : SnapshotFile) (fs : FileSystem) : Except StoreError FileSystem :=
  (fs.rename f.draftPath f.path).mapError (.fault f.path)

def save (f : SnapshotFile) (s : Snapshot) (fs : FileSystem) :
    FileSystem × Except StoreError Unit :=
  match f.writeDraft s fs with
  | .error e => (fs, .error e)
  | .ok drafted =>
    match f.publish drafted with
    | .error e => (drafted, .error e)
    | .ok fs' => (fs', .ok ())

end SnapshotFile
end SharedCanvas
