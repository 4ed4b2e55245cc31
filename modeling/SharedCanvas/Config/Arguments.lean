import SharedCanvas.Config.Basic
import SharedCanvas.Text.Number

namespace SharedCanvas

/-- What the command line sets. -/
structure Arguments where
  bind : Option String
  port : Option Nat
  maxClients : Option Nat
  width : Option Nat
  height : Option Nat
  workers : Option Nat
  queueCapacity : Option Nat
  broadcastMillis : Option Nat
  snapshotSecs : Option Nat
  snapshotPath : Option String
  noSnapshot : Bool
  staticDir : Option String
deriving DecidableEq, Repr

/-- What the command line asks for. -/
inductive Command
  | run (args : Arguments)
  | help
  | version
deriving DecidableEq, Repr

namespace Arguments

def none : Arguments :=
  ⟨.none, .none, .none, .none, .none, .none, .none, .none, .none, .none, false, .none⟩

/-- A 16-bit number is read with a sign of either kind, as long as it is not negative. -/
def readWord (s : String) : Option Nat :=
  match s.toList with
  | '-' :: c :: cs => (Text.readDigits 0 0 (c :: cs)).toOption
  | _ => (Text.readNumber maxWord16 s).toOption

def readLongWord (s : String) : Option Nat := (Text.readNumber maxWord64 s).toOption

def readPath (s : String) : Option String := if s.isEmpty then .none else some s

def fill {α : Type} (old : Option α) (new : Option α) : Option (Option α) :=
  match old, new with
  | .none, some a => some (some a)
  | _, _ => .none

/-- The arguments with one more option, unless it is unknown, has been given before or has a value
that is no good. -/
def set (a : Arguments) (name value : String) : Option Arguments :=
  match name with
  | "bind" => (fill a.bind (some value)).map fun v => { a with bind := v }
  | "port" => (fill a.port (readWord value)).map fun v => { a with port := v }
  | "max-clients" =>
    (fill a.maxClients (readLongWord value)).map fun v => { a with maxClients := v }
  | "width" => (fill a.width (readWord value)).map fun v => { a with width := v }
  | "height" => (fill a.height (readWord value)).map fun v => { a with height := v }
  | "workers" => (fill a.workers (readLongWord value)).map fun v => { a with workers := v }
  | "queue-capacity" =>
    (fill a.queueCapacity (readLongWord value)).map fun v => { a with queueCapacity := v }
  | "broadcast-ms" =>
    (fill a.broadcastMillis (readLongWord value)).map fun v => { a with broadcastMillis := v }
  | "snapshot-secs" =>
    (fill a.snapshotSecs (readLongWord value)).map fun v => { a with snapshotSecs := v }
  | "snapshot-path" =>
    (fill a.snapshotPath (readPath value)).map fun v => { a with snapshotPath := v }
  | "static-dir" => (fill a.staticDir (readPath value)).map fun v => { a with staticDir := v }
  | _ => .none

def setFlag (a : Arguments) : Option Arguments :=
  if a.noSnapshot then .none else some { a with noSnapshot := true }

/-- How an argument reads. -/
inductive Token
  /-- Two hyphens: no options follow. -/
  | endOfOptions
  | long (name : String) (value : Option String)
  | short (letters : List Char)
  | bare
deriving DecidableEq, Repr

/-- A single hyphen is no option. -/
def token (arg : String) : Token :=
  match arg.toList with
  | ['-', '-'] => .endOfOptions
  | '-' :: '-' :: cs =>
    let name := String.ofList (cs.takeWhile (· != '='))
    match cs.dropWhile (· != '=') with
    | [] => .long name .none
    | _ :: value => .long name (some (String.ofList value))
  | '-' :: c :: cs => .short (c :: cs)
  | _ => .bare

/-- What comes before the argument after it. -/
inductive Step
  | done (a : Arguments)
  /-- The next argument is the value of this option. -/
  | wants (name : String)
  | stop (c : Command)

def long (a : Arguments) (name : String) (value : Option String) : Option Step :=
  match name, value with
  | "help", .none => some (.stop .help)
  | "version", .none => some (.stop .version)
  | "no-snapshot", .none => a.setFlag.map .done
  | name, some value => (a.set name value).map .done
  | name, .none => some (.wants name)

/-- Letters after one hyphen; what follows a `p` is the port. -/
def short : List Char → Arguments → Option Step
  | 'h' :: _, _ => some (.stop .help)
  | 'V' :: _, _ => some (.stop .version)
  | ['p'], _ => some (.wants "port")
  | 'p' :: '=' :: value, a => (a.set "port" (String.ofList value)).map .done
  | 'p' :: value, a => (a.set "port" (String.ofList value)).map .done
  | _, _ => .none

/-- No path together with no snapshots. -/
def finish (a : Arguments) : Option Command :=
  if a.noSnapshot && a.snapshotPath.isSome then .none else some (.run a)

/-- Reads the arguments from the left. `wanted` is the option whose value must come next. -/
def read (a : Arguments) (wanted : Option String) : List String → Option Command
  | [] =>
    match wanted with
    | some _ => .none
    | .none => a.finish
  | arg :: args =>
    match wanted, token arg with
    | some name, .bare =>
      match a.set name arg with
      | .none => .none
      | some a => read a .none args
    | some _, _ => .none
    | .none, .bare => .none
    | .none, .endOfOptions => if args.isEmpty then a.finish else .none
    | .none, .long name value =>
      match a.long name value with
      | .none => .none
      | some (.stop c) => some c
      | some (.done a) => read a .none args
      | some (.wants name) => read a (some name) args
    | .none, .short letters =>
      match short letters a with
      | .none => .none
      | some (.stop c) => some c
      | some (.done a) => read a .none args
      | some (.wants name) => read a (some name) args

def parse (args : List String) : Option Command := read none .none args

def apply (a : Arguments) (c : Config) : Config where
  bindAddress := a.bind.getD c.bindAddress
  port := (a.port.map UInt16.ofNat).getD c.port
  maxClients := a.maxClients.getD c.maxClients
  width := (a.width.map UInt16.ofNat).getD c.width
  height := (a.height.map UInt16.ofNat).getD c.height
  workers := a.workers.getD c.workers
  queueCapacity := a.queueCapacity.getD c.queueCapacity
  recvBuffer := c.recvBuffer
  maxOutbox := c.maxOutbox
  broadcastMillis := a.broadcastMillis.getD c.broadcastMillis
  snapshotMillis := (a.snapshotSecs.map (· * 1000)).getD c.snapshotMillis
  snapshotPath := if a.noSnapshot then .none else a.snapshotPath <|> c.snapshotPath
  staticDir := a.staticDir <|> c.staticDir

end Arguments
end SharedCanvas
