import SharedCanvas.Config.Basic
import SharedCanvas.Text.Number
import SharedCanvas.Text.Quoted

namespace SharedCanvas

abbrev Environment := String → Option Bytes

namespace Environment

/-- A variable that is not UTF-8 counts as unset. -/
def text? (env : Environment) (key : String) : Option String := (env key).bind Bytes.toString?

end Environment

inductive SettingError
  | badValue (key value : String) (fault : Text.NumberFault)
  | invalid (e : ConfigError)
deriving DecidableEq, Repr

def SettingError.chain : SettingError → List String
  | .badValue key value fault =>
    ["invalid value for " ++ key ++ ": " ++ Text.quote value, fault.message]
  | .invalid e => [e.message]

namespace Config

/-- A number of at most `max`, `default` if the variable is unset. -/
def readSetting (env : Environment) (key : String) (max default : Nat) :
    Except SettingError Nat :=
  match env.text? key with
  | none => .ok default
  | some value => (Text.readNumber max value).mapError (.badValue key value)

def defaultSnapshotPath : String := "canvas_snapshot.json"

/-- An empty path turns the snapshots off. -/
def readSnapshotPath (env : Environment) : Option String :=
  match env.text? "CANVAS_SNAPSHOT_PATH" with
  | none => some defaultSnapshotPath
  | some path => if path.isEmpty then none else some path

def readStaticDir (env : Environment) : Option String :=
  (env.text? "CANVAS_STATIC_DIR").filter fun dir => !dir.isEmpty

def variableNames : List String := [
  "CANVAS_BIND_ADDR", "CANVAS_PORT", "CANVAS_MAX_CLIENTS", "CANVAS_WIDTH", "CANVAS_HEIGHT",
  "CANVAS_WORKERS", "CANVAS_QUEUE_CAPACITY", "CANVAS_RECV_BUFFER", "CANVAS_MAX_OUTBOX",
  "CANVAS_BROADCAST_MS", "CANVAS_SNAPSHOT_SECS", "CANVAS_SNAPSHOT_PATH", "CANVAS_STATIC_DIR"]

/-- The settings before they are checked, read in this order. -/
def readAll (env : Environment) : Except SettingError Config := do
  let bindAddress := (env.text? "CANVAS_BIND_ADDR").getD standard.bindAddress
  let port ← readSetting env "CANVAS_PORT" maxWord16 standard.port.toNat
  let maxClients ← readSetting env "CANVAS_MAX_CLIENTS" maxWord64 standard.maxClients
  let width ← readSetting env "CANVAS_WIDTH" maxWord16 standard.width.toNat
  let height ← readSetting env "CANVAS_HEIGHT" maxWord16 standard.height.toNat
  let workers ← readSetting env "CANVAS_WORKERS" maxWord64 standard.workers
  let queueCapacity ← readSetting env "CANVAS_QUEUE_CAPACITY" maxWord64 standard.queueCapacity
  let recvBuffer ← readSetting env "CANVAS_RECV_BUFFER" maxWord64 standard.recvBuffer
  let maxOutbox ← readSetting env "CANVAS_MAX_OUTBOX" maxWord64 standard.maxOutbox
  let broadcastMillis ← readSetting env "CANVAS_BROADCAST_MS" maxWord64 standard.broadcastMillis
  let snapshotSecs ←
    readSetting env "CANVAS_SNAPSHOT_SECS" maxWord64 (standard.snapshotMillis / 1000)
  return {
    bindAddress
    port := UInt16.ofNat port
    maxClients
    width := UInt16.ofNat width
    height := UInt16.ofNat height
    workers
    queueCapacity
    recvBuffer
    maxOutbox
    broadcastMillis
    snapshotMillis := snapshotSecs * 1000
    snapshotPath := readSnapshotPath env
    staticDir := readStaticDir env }

def ofEnvironment (env : Environment) : Except SettingError Config := do
  let c ← readAll env
  c.check.mapError .invalid
  return c

end Config
end SharedCanvas
