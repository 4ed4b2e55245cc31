import SharedCanvas.Config.Environment
import SharedCanvas.Proofs.Storage.Saved

namespace SharedCanvas

namespace Environment

def empty : Environment := fun _ => none

def only (key value : String) : Environment :=
  fun k => if k = key then some (Bytes.ofString value) else none

end Environment

/-- A variable that must be a number between two bounds. -/
structure NumberSetting where
  key : String
  least : Nat
  max : Nat
deriving DecidableEq, Repr

def NumberSetting.IsGood (s : NumberSetting) (env : Environment) : Prop :=
  ∀ value ∈ env.text? s.key, ∃ n, Text.readNumber s.max value = .ok n ∧ s.least ≤ n

namespace Config

/-- The upper bounds come from the reading, the lower ones from the check behind it. -/
def numberSettings : List NumberSetting := [
  ⟨"CANVAS_PORT", 0, maxWord16⟩,
  ⟨"CANVAS_MAX_CLIENTS", 1, maxWord64⟩,
  ⟨"CANVAS_WIDTH", 1, maxWord16⟩,
  ⟨"CANVAS_HEIGHT", 1, maxWord16⟩,
  ⟨"CANVAS_WORKERS", 1, maxWord64⟩,
  ⟨"CANVAS_QUEUE_CAPACITY", 1, maxWord64⟩,
  ⟨"CANVAS_RECV_BUFFER", minRecvBuffer, maxWord64⟩,
  ⟨"CANVAS_MAX_OUTBOX", 0, maxWord64⟩,
  ⟨"CANVAS_BROADCAST_MS", 1, maxWord64⟩,
  ⟨"CANVAS_SNAPSHOT_SECS", 1, maxWord64⟩]

/-- Every number of the environment is one that could be taken. -/
def InOrder (env : Environment) : Prop := ∀ s ∈ numberSettings, s.IsGood env

/-- The numbers of an environment. -/
structure Numbers where
  port : Nat
  maxClients : Nat
  width : Nat
  height : Nat
  workers : Nat
  queueCapacity : Nat
  recvBuffer : Nat
  maxOutbox : Nat
  broadcastMillis : Nat
  snapshotSecs : Nat

/-- Each of the numbers is what is taken for its variable. -/
structure Reads (env : Environment) (n : Numbers) : Prop where
  port : readSetting env "CANVAS_PORT" maxWord16 standard.port.toNat = .ok n.port
  maxClients : readSetting env "CANVAS_MAX_CLIENTS" maxWord64 standard.maxClients = .ok n.maxClients
  width : readSetting env "CANVAS_WIDTH" maxWord16 standard.width.toNat = .ok n.width
  height : readSetting env "CANVAS_HEIGHT" maxWord16 standard.height.toNat = .ok n.height
  workers : readSetting env "CANVAS_WORKERS" maxWord64 standard.workers = .ok n.workers
  queueCapacity : readSetting env "CANVAS_QUEUE_CAPACITY" maxWord64 standard.queueCapacity =
    .ok n.queueCapacity
  recvBuffer : readSetting env "CANVAS_RECV_BUFFER" maxWord64 standard.recvBuffer = .ok n.recvBuffer
  maxOutbox : readSetting env "CANVAS_MAX_OUTBOX" maxWord64 standard.maxOutbox = .ok n.maxOutbox
  broadcastMillis : readSetting env "CANVAS_BROADCAST_MS" maxWord64 standard.broadcastMillis =
    .ok n.broadcastMillis
  snapshotSecs : readSetting env "CANVAS_SNAPSHOT_SECS" maxWord64 (standard.snapshotMillis / 1000) =
    .ok n.snapshotSecs

def Numbers.settings (n : Numbers) (env : Environment) : Config where
  bindAddress := (env.text? "CANVAS_BIND_ADDR").getD standard.bindAddress
  port := UInt16.ofNat n.port
  maxClients := n.maxClients
  width := UInt16.ofNat n.width
  height := UInt16.ofNat n.height
  workers := n.workers
  queueCapacity := n.queueCapacity
  recvBuffer := n.recvBuffer
  maxOutbox := n.maxOutbox
  broadcastMillis := n.broadcastMillis
  snapshotMillis := n.snapshotSecs * 1000
  snapshotPath := readSnapshotPath env
  staticDir := readStaticDir env

variable {env env' : Environment} {n n' : Numbers} {c : Config}

theorem readAll_eq_ok_iff : readAll env = .ok c ↔ ∃ n, Reads env n ∧ c = n.settings env := by
  simp only [readAll, bind_eq_ok_iff]
  constructor
  · rintro ⟨port, hport, maxClients, hmaxClients, width, hwidth, height, hheight, workers, hworkers,
      queueCapacity, hqueueCapacity, recvBuffer, hrecvBuffer, maxOutbox, hmaxOutbox,
      broadcastMillis, hbroadcastMillis, snapshotSecs, hsnapshotSecs, hc⟩
    exact ⟨⟨port, maxClients, width, height, workers, queueCapacity, recvBuffer, maxOutbox,
      broadcastMillis, snapshotSecs⟩, ⟨hport, hmaxClients, hwidth, hheight, hworkers,
      hqueueCapacity, hrecvBuffer, hmaxOutbox, hbroadcastMillis, hsnapshotSecs⟩,
      (Except.ok.inj hc).symm⟩
  · rintro ⟨n, h, rfl⟩
    exact ⟨_, h.port, _, h.maxClients, _, h.width, _, h.height, _, h.workers, _, h.queueCapacity, _,
      h.recvBuffer, _, h.maxOutbox, _, h.broadcastMillis, _, h.snapshotSecs, rfl⟩

theorem readSetting_congr {key : String} (h : env key = env' key) (max default : Nat) :
    readSetting env key max default = readSetting env' key max default := by
  simp only [readSetting, Environment.text?, h]

theorem readSetting_inj {key : String} (h : env key = env' key) {max default k k' : Nat}
    (hk : readSetting env key max default = .ok k)
    (hk' : readSetting env' key max default = .ok k') : k = k' := by
  rw [readSetting_congr h, hk'] at hk
  exact (Except.ok.inj hk).symm

theorem readSetting_le {key : String} {max default n : Nat} (hd : default ≤ max)
    (h : readSetting env key max default = .ok n) : n ≤ max := by
  unfold readSetting at h
  split at h
  · obtain rfl := Except.ok.inj h
    exact hd
  · exact Text.readNumber_le (mapError_eq_ok_iff.1 h)

theorem isGood_iff (default : Nat) {key : String} {least max : Nat} (hd : least ≤ default) :
    (⟨key, least, max⟩ : NumberSetting).IsGood env ↔
      ∃ n, readSetting env key max default = .ok n ∧ least ≤ n := by
  unfold NumberSetting.IsGood readSetting
  cases env.text? key with
  | none => simpa using hd
  | some value => simp [mapError_eq_ok_iff]

theorem ofEnvironment_eq_ok_iff :
    ofEnvironment env = .ok c ↔ readAll env = .ok c ∧ c.check = .ok () := by
  simp only [ofEnvironment, bind_eq_ok_iff, mapError_eq_ok_iff]
  constructor
  · rintro ⟨c, hread, _, hcheck, hc⟩
    obtain rfl := Except.ok.inj hc
    exact ⟨hread, hcheck⟩
  · rintro ⟨hread, hcheck⟩
    exact ⟨c, hread, (), hcheck, rfl⟩

theorem ofNat_ne_zero_iff {k : Nat} (h : k ≤ maxWord16) : UInt16.ofNat k ≠ 0 ↔ 1 ≤ k := by
  have hk : k < UInt16.size := Nat.lt_succ_of_le h
  rw [Ne, ← UInt16.toNat_inj, UInt16.toNat_ofNat_of_lt' hk, UInt16.toNat_zero]
  omega

/-- A server can run with the numbers of an environment if none is less than it must be. -/
theorem check_settings_iff (h : Reads env n) : (n.settings env).check = .ok () ↔
    (1 ≤ n.width ∧ 1 ≤ n.height) ∧ 1 ≤ n.workers ∧ 1 ≤ n.queueCapacity ∧ 1 ≤ n.maxClients ∧
      minRecvBuffer ≤ n.recvBuffer ∧ 1 ≤ n.broadcastMillis ∧ 1 ≤ n.snapshotSecs := by
  rw [check_eq_ok_iff, Numbers.settings,
    ofNat_ne_zero_iff (readSetting_le (by decide) h.width),
    ofNat_ne_zero_iff (readSetting_le (by decide) h.height)]
  dsimp only
  omega

theorem inOrder_iff : InOrder env ↔ ∃ c, ofEnvironment env = .ok c := by
  simp only [InOrder, numberSettings, List.forall_mem_cons, ofEnvironment_eq_ok_iff,
    readAll_eq_ok_iff]
  -- No default is below its bound, so a variable is good exactly if what is taken for it is.
  rw [isGood_iff standard.port.toNat (by decide), isGood_iff standard.maxClients (by decide),
    isGood_iff standard.width.toNat (by decide), isGood_iff standard.height.toNat (by decide),
    isGood_iff standard.workers (by decide), isGood_iff standard.queueCapacity (by decide),
    isGood_iff standard.recvBuffer (by decide), isGood_iff standard.maxOutbox (by decide),
    isGood_iff standard.broadcastMillis (by decide),
    isGood_iff (standard.snapshotMillis / 1000) (by decide)]
  constructor
  · rintro ⟨⟨port, hport, -⟩, ⟨maxClients, hmaxClients, leMaxClients⟩, ⟨width, hwidth, leWidth⟩,
      ⟨height, hheight, leHeight⟩, ⟨workers, hworkers, leWorkers⟩,
      ⟨queueCapacity, hqueueCapacity, leQueueCapacity⟩, ⟨recvBuffer, hrecvBuffer, leRecvBuffer⟩,
      ⟨maxOutbox, hmaxOutbox, -⟩, ⟨broadcastMillis, hbroadcastMillis, leBroadcastMillis⟩,
      ⟨snapshotSecs, hsnapshotSecs, leSnapshotSecs⟩, -⟩
    let n : Numbers := ⟨port, maxClients, width, height, workers, queueCapacity, recvBuffer,
      maxOutbox, broadcastMillis, snapshotSecs⟩
    have hn : Reads env n := ⟨hport, hmaxClients, hwidth, hheight, hworkers, hqueueCapacity,
      hrecvBuffer, hmaxOutbox, hbroadcastMillis, hsnapshotSecs⟩
    exact ⟨n.settings env, ⟨n, hn, rfl⟩, (check_settings_iff hn).2 ⟨⟨leWidth, leHeight⟩, leWorkers,
      leQueueCapacity, leMaxClients, leRecvBuffer, leBroadcastMillis, leSnapshotSecs⟩⟩
  · rintro ⟨_, ⟨n, hn, rfl⟩, hcheck⟩
    obtain ⟨⟨leWidth, leHeight⟩, leWorkers, leQueueCapacity, leMaxClients, leRecvBuffer,
      leBroadcastMillis, leSnapshotSecs⟩ := (check_settings_iff hn).1 hcheck
    exact ⟨⟨_, hn.port, Nat.zero_le _⟩, ⟨_, hn.maxClients, leMaxClients⟩, ⟨_, hn.width, leWidth⟩,
      ⟨_, hn.height, leHeight⟩, ⟨_, hn.workers, leWorkers⟩, ⟨_, hn.queueCapacity, leQueueCapacity⟩,
      ⟨_, hn.recvBuffer, leRecvBuffer⟩, ⟨_, hn.maxOutbox, Nat.zero_le _⟩,
      ⟨_, hn.broadcastMillis, leBroadcastMillis⟩, ⟨_, hn.snapshotSecs, leSnapshotSecs⟩,
      List.forall_mem_nil _⟩

def withTexts (c : Config) (env : Environment) : Config := { c with
  bindAddress := (env.text? "CANVAS_BIND_ADDR").getD standard.bindAddress
  snapshotPath := readSnapshotPath env
  staticDir := readStaticDir env }

theorem check_withTexts (c : Config) (env : Environment) : (c.withTexts env).check = c.check := rfl

theorem ofEnvironment_congr (h : ∀ s ∈ numberSettings, env s.key = env' s.key) :
    ofEnvironment env = (·.withTexts env) <$> ofEnvironment env' := by
  simp only [numberSettings, List.forall_mem_cons] at h
  obtain ⟨hport, hmaxClients, hwidth, hheight, hworkers, hqueueCapacity, hrecvBuffer, hmaxOutbox,
    hbroadcastMillis, hsnapshotSecs, -⟩ := h
  have hread : readAll env = (·.withTexts env) <$> readAll env' := by
    simp only [readAll, readSetting_congr hport, readSetting_congr hmaxClients,
      readSetting_congr hwidth, readSetting_congr hheight, readSetting_congr hworkers,
      readSetting_congr hqueueCapacity, readSetting_congr hrecvBuffer,
      readSetting_congr hmaxOutbox, readSetting_congr hbroadcastMillis,
      readSetting_congr hsnapshotSecs, map_bind, map_pure, withTexts]
  simp only [ofEnvironment, hread, bind_map_left, map_bind, map_pure, check_withTexts]

/-- What is wrong with an environment, as it is reported; nothing if a server can run with it. -/
def fault? (env : Environment) : Option (List String) :=
  match ofEnvironment env with
  | .ok _ => none
  | .error e => some e.chain

theorem fault?_eq_none_iff : fault? env = none ↔ InOrder env := by
  rw [inOrder_iff, fault?]
  cases ofEnvironment env <;> simp

theorem inOrder_empty : InOrder Environment.empty := by
  intro s _ value hvalue
  simp [Environment.text?, Environment.empty] at hvalue

theorem inOrder_only_iff {key value : String} : InOrder (.only key value) ↔
    ∀ s ∈ numberSettings, s.key = key → ∃ n, Text.readNumber s.max value = .ok n ∧ s.least ≤ n := by
  refine forall₂_congr fun s _ => ?_
  by_cases hkey : s.key = key
  · simp [NumberSetting.IsGood, Environment.text?, Environment.only, hkey, Bytes.toString?_ofString]
  · simp [NumberSetting.IsGood, Environment.text?, Environment.only, hkey]

/-- Nothing but a number can be wrong. -/
theorem fault?_congr (h : ∀ s ∈ numberSettings, env s.key = env' s.key) :
    fault? env = fault? env' := by
  rw [fault?, fault?, ofEnvironment_congr h]
  cases ofEnvironment env' <;> rfl

end Config

end SharedCanvas
