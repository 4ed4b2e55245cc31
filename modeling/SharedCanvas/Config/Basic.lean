import SharedCanvas.Frame.Encode
import SharedCanvas.Canvas.Binary

namespace SharedCanvas

structure Config where
  bindAddress : String
  port : UInt16
  maxClients : Nat
  width : UInt16
  height : UInt16
  workers : Nat
  /-- Of each lane. -/
  queueCapacity : Nat
  recvBuffer : Nat
  maxOutbox : Nat
  broadcastMillis : Nat
  snapshotMillis : Nat
  snapshotPath : Option String
  staticDir : Option String
deriving DecidableEq, Repr

inductive ConfigError
  | emptyCanvas
  | noWorkers
  | noQueue
  | noClients
  | smallRecvBuffer (bytes : Nat)
  | noBroadcastInterval
  | noSnapshotInterval
deriving DecidableEq, Repr

def ConfigError.message : ConfigError → String
  | .emptyCanvas => "canvas must not be empty"
  | .noWorkers => "at least one worker is required"
  | .noQueue => "queue capacity must be positive"
  | .noClients => "max_clients must be positive"
  | .smallRecvBuffer n => s!"receive buffer must hold at least 1024 bytes (got {n})"
  | .noBroadcastInterval => "broadcast interval must be positive"
  | .noSnapshotInterval => "snapshot interval must be positive"

namespace Config

def standard : Config where
  bindAddress := "0.0.0.0"
  port := 8080
  maxClients := 10000
  width := 500
  height := 500
  workers := 4
  queueCapacity := 2048
  recvBuffer := 65536
  maxOutbox := 4194304
  broadcastMillis := 500
  snapshotMillis := 60000
  snapshotPath := none
  staticDir := none

def minRecvBuffer : Nat := 1024

/-- The first thing that is wrong, in the order in which the settings are looked at. -/
def check (c : Config) : Except ConfigError Unit := do
  if c.width = 0 ∨ c.height = 0 then throw .emptyCanvas
  if c.workers = 0 then throw .noWorkers
  if c.queueCapacity = 0 then throw .noQueue
  if c.maxClients = 0 then throw .noClients
  if c.recvBuffer < minRecvBuffer then throw (.smallRecvBuffer c.recvBuffer)
  if c.broadcastMillis = 0 then throw .noBroadcastInterval
  if c.snapshotMillis = 0 then throw .noSnapshotInterval

def address (c : Config) : String := c.bindAddress ++ ":" ++ toString c.port.toNat

def headroom : Nat := 65536

/-- The most bytes that may wait for a client. The first picture always fits. -/
def outboxLimit (c : Config) : Nat :=
  let payload := Snapshot.headerLength + c.width.toNat * c.height.toNat
  max c.maxOutbox (Frame.headerLength payload false + payload + headroom)

theorem check_eq_ok_iff {c : Config} : c.check = .ok () ↔
    (c.width ≠ 0 ∧ c.height ≠ 0) ∧ c.workers ≠ 0 ∧ c.queueCapacity ≠ 0 ∧ c.maxClients ≠ 0 ∧
      minRecvBuffer ≤ c.recvBuffer ∧ c.broadcastMillis ≠ 0 ∧ c.snapshotMillis ≠ 0 := by
  unfold check
  by_cases h1 : c.width = 0 ∨ c.height = 0
  · simp only [h1, if_true]
    refine iff_of_false nofun fun h => ?_
    exact h1.elim h.1.1 h.1.2
  simp only [h1, if_false]
  have h1' := not_or.1 h1
  by_cases h2 : c.workers = 0
  · simp only [h2]; exact iff_of_false nofun fun h => h.2.1 rfl
  by_cases h3 : c.queueCapacity = 0
  · simp only [h2, h3]; exact iff_of_false nofun fun h => h.2.2.1 rfl
  by_cases h4 : c.maxClients = 0
  · simp only [h2, h3, h4]; exact iff_of_false nofun fun h => h.2.2.2.1 rfl
  by_cases h5 : c.recvBuffer < minRecvBuffer
  · simp only [h2, h3, h4, h5]
    exact iff_of_false nofun fun h => absurd h.2.2.2.2.1 (by omega)
  by_cases h6 : c.broadcastMillis = 0
  · simp only [h2, h3, h4, h5, h6]
    exact iff_of_false nofun fun h => h.2.2.2.2.2.1 rfl
  by_cases h7 : c.snapshotMillis = 0
  · simp only [h2, h3, h4, h5, h6, h7]
    exact iff_of_false nofun fun h => h.2.2.2.2.2.2 rfl
  simp only [h2, h3, h4, h5, h6, h7]
  exact iff_of_true rfl ⟨h1', h2, h3, h4, by omega, h6, h7⟩

end Config
end SharedCanvas
