import Mathlib.Data.List.Nodup
import SharedCanvas.CommandLine
import SharedCanvas.Proofs.Config.InOrder

namespace SharedCanvas

namespace Arguments

def given (a : Arguments) : List (String × Bool) := [
  ("CANVAS_BIND_ADDR", a.bind.isSome),
  ("CANVAS_PORT", a.port.isSome),
  ("CANVAS_MAX_CLIENTS", a.maxClients.isSome),
  ("CANVAS_WIDTH", a.width.isSome),
  ("CANVAS_HEIGHT", a.height.isSome),
  ("CANVAS_WORKERS", a.workers.isSome),
  ("CANVAS_QUEUE_CAPACITY", a.queueCapacity.isSome),
  ("CANVAS_BROADCAST_MS", a.broadcastMillis.isSome),
  ("CANVAS_SNAPSHOT_SECS", a.snapshotSecs.isSome),
  ("CANVAS_SNAPSHOT_PATH", a.noSnapshot || a.snapshotPath.isSome),
  ("CANVAS_STATIC_DIR", a.staticDir.isSome)]

/-- The command line gives the setting of the variable. -/
def Overrides (a : Arguments) (key : String) : Prop := (key, true) ∈ a.given

end Arguments

namespace Environment

/-- The environments differ only in variables whose setting the command line gives. -/
def AgreeUnder (a : Arguments) (env env' : Environment) : Prop :=
  ∀ key, ¬ a.Overrides key → env key = env' key

theorem only_agreeUnder {a : Arguments} {key : String} (h : a.Overrides key) (value : String) :
    (only key value).AgreeUnder a empty := by
  intro k hk
  have hne : k ≠ key := fun heq => hk (heq ▸ h)
  simp [only, empty, hne]

end Environment

namespace Arguments

variable {a : Arguments} {env env' : Environment} {n n' : Config.Numbers}

def overridable : List String := [
  "CANVAS_BIND_ADDR", "CANVAS_PORT", "CANVAS_MAX_CLIENTS", "CANVAS_WIDTH", "CANVAS_HEIGHT",
  "CANVAS_WORKERS", "CANVAS_QUEUE_CAPACITY", "CANVAS_BROADCAST_MS", "CANVAS_SNAPSHOT_SECS",
  "CANVAS_SNAPSHOT_PATH", "CANVAS_STATIC_DIR"]

theorem map_fst_given (a : Arguments) : a.given.map Prod.fst = overridable := rfl

theorem not_overrides_of_not_mem {key : String} (h : key ∉ overridable) : ¬ a.Overrides key :=
  fun hm => h (a.map_fst_given ▸ List.mem_map_of_mem hm)

theorem not_overrides {i : Nat} {key : String} (hi : a.given[i]? = some (key, false)) :
    ¬ a.Overrides key := by
  intro h
  have hkeys : (a.given.map Prod.fst).Nodup := by
    rw [map_fst_given]
    decide
  have heq := List.inj_on_of_nodup_map hkeys h (List.mem_of_getElem? hi) rfl
  simp at heq

theorem getD_eq (h : env.AgreeUnder a env') {given : Option Nat} {i : Nat} {key : String}
    (hi : a.given[i]? = some (key, given.isSome)) {max default k k' : Nat}
    (hk : Config.readSetting env key max default = .ok k)
    (hk' : Config.readSetting env' key max default = .ok k') : given.getD k = given.getD k' := by
  cases given with
  | some v => rfl
  | none => exact Config.readSetting_inj (h key (not_overrides hi)) hk hk'

theorem text?_eq (h : env.AgreeUnder a env') {i : Nat} {key : String}
    (hi : a.given[i]? = some (key, false)) : env.text? key = env'.text? key := by
  rw [Environment.text?, Environment.text?, h key (not_overrides hi)]

theorem apply_settings_eq (h : env.AgreeUnder a env') (hn : Config.Reads env n)
    (hn' : Config.Reads env' n') : a.apply (n.settings env) = a.apply (n'.settings env') := by
  simp only [apply, Config.Numbers.settings, Config.mk.injEq, Option.getD_map]
  refine ⟨?bindAddress, ?port, ?maxClients, ?width, ?height, ?workers, ?queueCapacity, ?recvBuffer,
    ?maxOutbox, ?broadcastMillis, ?snapshotMillis, ?snapshotPath, ?staticDir⟩
  case port => rw [getD_eq h (i := 1) rfl hn.port hn'.port]
  case maxClients => exact getD_eq h (i := 2) rfl hn.maxClients hn'.maxClients
  case width => rw [getD_eq h (i := 3) rfl hn.width hn'.width]
  case height => rw [getD_eq h (i := 4) rfl hn.height hn'.height]
  case workers => exact getD_eq h (i := 5) rfl hn.workers hn'.workers
  case queueCapacity => exact getD_eq h (i := 6) rfl hn.queueCapacity hn'.queueCapacity
  case broadcastMillis => exact getD_eq h (i := 7) rfl hn.broadcastMillis hn'.broadcastMillis
  case snapshotMillis => rw [getD_eq h (i := 8) rfl hn.snapshotSecs hn'.snapshotSecs]
  -- The command line has no such options.
  case recvBuffer =>
    have hkey := h "CANVAS_RECV_BUFFER" (not_overrides_of_not_mem (by decide))
    exact Config.readSetting_inj hkey hn.recvBuffer hn'.recvBuffer
  case maxOutbox =>
    have hkey := h "CANVAS_MAX_OUTBOX" (not_overrides_of_not_mem (by decide))
    exact Config.readSetting_inj hkey hn.maxOutbox hn'.maxOutbox
  case bindAddress =>
    have hi : a.given[0]? = some ("CANVAS_BIND_ADDR", a.bind.isSome) := rfl
    cases ha : a.bind with
    | some bind => rfl
    | none =>
      rw [ha] at hi
      rw [text?_eq h hi]
  case snapshotPath =>
    have hi : a.given[9]? = some ("CANVAS_SNAPSHOT_PATH", a.noSnapshot || a.snapshotPath.isSome) :=
      rfl
    cases hno : a.noSnapshot with
    | true => rfl
    | false =>
      cases ha : a.snapshotPath with
      | some path => rfl
      | none =>
        rw [hno, ha] at hi
        simp only [Config.readSnapshotPath, text?_eq h hi]
  case staticDir =>
    have hi : a.given[10]? = some ("CANVAS_STATIC_DIR", a.staticDir.isSome) := rfl
    cases ha : a.staticDir with
    | some dir => rfl
    | none =>
      rw [ha] at hi
      simp only [Config.readStaticDir, text?_eq h hi]

end Arguments

theorem SettingError.chain_ne_nil (e : SettingError) : e.chain ≠ [] := by
  cases e <;> simp [SettingError.chain]

namespace CommandLine

variable {args : List String} {a : Arguments} {env env' : Environment}

/-- What is wrong with the environment ends the program, and nothing else ends it with the same
words. -/
theorem fault?_eq_some_iff (hargs : Arguments.parse args = some (.run a)) (chain : List String) :
    Config.fault? env = some chain ↔
      prepare env args = .failed ("invalid environment configuration" :: chain) ∧ chain ≠ [] := by
  simp only [prepare, hargs, settings, Config.fault?]
  cases Config.ofEnvironment env with
  | error e =>
    simp only [Option.some.injEq, Preparation.failed.injEq, List.cons.injEq, true_and]
    exact ⟨fun h => ⟨h, h ▸ e.chain_ne_nil⟩, And.left⟩
  | ok c =>
    refine iff_of_false (by simp) ?_
    rintro ⟨hfailed, hchain⟩
    dsimp only at hfailed
    cases hcheck : (a.apply c).check with
    | ok _ => simp [hcheck] at hfailed
    | error e =>
      -- What is wrong with the settings in their place is a single message.
      simp only [hcheck, Preparation.failed.injEq, List.cons.injEq] at hfailed
      exact hchain hfailed.2.symm

theorem prepare_eq_failed_iff (host : Host) (files : FileSystem) (chain : List String) :
    prepare env args = .failed chain ↔ run host files env args = .failed [] chain := by
  unfold run
  cases prepare env args with
  | ready message c => cases hstart : Server.start host c files <;> simp [hstart]
  | _ => simp

theorem settings_eq_of_fault?_eq (h : env.AgreeUnder a env')
    (hf : Config.fault? env = Config.fault? env') : settings env a = settings env' a := by
  unfold Config.fault? at hf
  unfold settings
  cases he : Config.ofEnvironment env with
  | error e =>
    cases he' : Config.ofEnvironment env' with
    | error e' =>
      simp only [he, he', Option.some.injEq] at hf ⊢
      rw [hf]
    | ok c' => simp [he, he'] at hf
  | ok c =>
    cases he' : Config.ofEnvironment env' with
    | error e' => simp [he, he'] at hf
    | ok c' =>
      obtain ⟨n, hn, rfl⟩ := Config.readAll_eq_ok_iff.1 (Config.ofEnvironment_eq_ok_iff.1 he).1
      obtain ⟨n', hn', rfl⟩ := Config.readAll_eq_ok_iff.1 (Config.ofEnvironment_eq_ok_iff.1 he').1
      dsimp only
      rw [Arguments.apply_settings_eq h hn hn']

/-- Variables whose settings the command line gives matter only by what is wrong with the
environment itself, which is looked at first: one of its numbers could not be taken, whether or not
the command line gives another. -/
theorem overridden_matter_iff
    (h : ∀ a, Arguments.parse args = some (.run a) → env.AgreeUnder a env') :
    (prepare env args = prepare env' args ↔
        ∀ a, Arguments.parse args = some (.run a) → Config.fault? env = Config.fault? env') ∧
      (∀ host files, run host files env args = run host files env' args ↔
        prepare env args = prepare env' args) ∧
      (∀ env, Config.fault? env = none ↔ Config.InOrder env) ∧
      ((∀ s ∈ Config.numberSettings, env s.key = env' s.key) →
        Config.fault? env = Config.fault? env') := by
  have of_fault (hf : ∀ a, Arguments.parse args = some (.run a) →
      Config.fault? env = Config.fault? env') : prepare env args = prepare env' args := by
    unfold prepare
    split
    · rfl
    · rfl
    · rfl
    · rename_i a hargs
      rw [settings_eq_of_fault?_eq (h a hargs) (hf a hargs)]
  refine ⟨⟨fun hp a hargs => ?_, of_fault⟩, fun host files => ⟨fun hr => ?_, fun hp => ?_⟩,
    fun _ => Config.fault?_eq_none_iff, Config.fault?_congr⟩
  · apply Option.ext
    intro chain
    rw [fault?_eq_some_iff hargs, fault?_eq_some_iff hargs, hp]
  · refine of_fault fun a hargs => ?_
    apply Option.ext
    intro chain
    rw [fault?_eq_some_iff hargs, fault?_eq_some_iff hargs, prepare_eq_failed_iff host files,
      prepare_eq_failed_iff host files, hr]
  · rw [run, run, hp]

def addressGiven : List String := ["--bind", "203.0.113.1", "--port", "81"]

theorem parse_addressGiven : Arguments.parse addressGiven = some (.run
    { Arguments.none with bind := some "203.0.113.1", port := some 81 }) := by decide

theorem only_port_agreeUnder (value : String) (a : Arguments)
    (ha : Arguments.parse addressGiven = some (.run a)) :
    (Environment.only "CANVAS_PORT" value).AgreeUnder a Environment.empty := by
  obtain rfl := Command.run.inj (Option.some.inj (parse_addressGiven.symm.trans ha))
  exact Environment.only_agreeUnder (List.mem_of_getElem? (i := 1) rfl) value

/-- A port that is a number does not matter. -/
theorem overridden_matter_iff_port :
    (∀ a, Arguments.parse addressGiven = some (.run a) →
        (Environment.only "CANVAS_PORT" "1").AgreeUnder a Environment.empty) ∧
      prepare (Environment.only "CANVAS_PORT" "1") addressGiven =
        prepare Environment.empty addressGiven := by
  refine ⟨only_port_agreeUnder "1", ?_⟩
  refine (overridden_matter_iff (only_port_agreeUnder "1")).1.2 fun _ _ => ?_
  have hone : Config.InOrder (Environment.only "CANVAS_PORT" "1") := by
    rw [Config.inOrder_only_iff]
    simp only [Config.numberSettings, List.forall_mem_cons]
    refine ⟨fun _ => ⟨1, rfl, by decide⟩, ?_⟩
    simp
  rw [Config.fault?_eq_none_iff.2 hone, Config.fault?_eq_none_iff.2 Config.inOrder_empty]

/-- A port that is no number does, although the command line gives another. -/
theorem overridden_port_is_read :
    (∀ a, Arguments.parse addressGiven = some (.run a) →
        (Environment.only "CANVAS_PORT" "abc").AgreeUnder a Environment.empty) ∧
      prepare (Environment.only "CANVAS_PORT" "abc") addressGiven = .failed [
        "invalid environment configuration", "invalid value for CANVAS_PORT: \"abc\"",
        "invalid digit found in string"] ∧
      ∃ message c, prepare Environment.empty addressGiven = .ready message c := by
  refine ⟨only_port_agreeUnder "abc", ?_, ?_⟩
  · have hread : Config.ofEnvironment (.only "CANVAS_PORT" "abc") =
        .error (.badValue "CANVAS_PORT" "abc" .invalidDigit) := by
      rw [Config.ofEnvironment, Config.readAll, Config.readSetting, Environment.text?,
        Environment.only, if_pos rfl, Option.bind_some, Bytes.toString?_ofString]
      rfl
    refine ((fault?_eq_some_iff parse_addressGiven _).1 ?_).1
    rw [Config.fault?, hread]
    rfl
  · exact ⟨_, _, rfl⟩

end CommandLine
end SharedCanvas
