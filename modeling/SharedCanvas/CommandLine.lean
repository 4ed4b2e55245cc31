import SharedCanvas.Config.Arguments
import SharedCanvas.Config.Environment
import SharedCanvas.Server

namespace SharedCanvas.CommandLine

/-- What the arguments and the environment come to. -/
inductive Preparation
  /-- The arguments are no good. -/
  | usage
  | help
  | version
  | failed (chain : List String)
  /-- A server is to be started; the message comes first. -/
  | ready (message : String) (c : Config)

/-- How the program ends, or that it does not. -/
inductive Outcome
  /-- The arguments are no good. -/
  | usage
  | help
  | version
  /-- What was reported before, and the error with what lies behind it. -/
  | failed (log : List String) (chain : List String)
  /-- The server runs until it is stopped. -/
  | serving (log : List String) (server : Server)

def name : String := "canvas-server"

def versionText : String := name ++ " 0.1.0"

def usageText : String := "Usage: " ++ name ++ " [OPTIONS]"

def helpText : String :=
  "\n".intercalate [
    "Collaborative pixel canvas over WebSocket",
    "",
    usageText,
    "",
    "Options:",
    "      --bind <BIND>                      the address to listen on",
    "  -p, --port <PORT>                      the port to listen on",
    "      --max-clients <MAX_CLIENTS>        the most clients at once",
    "      --width <WIDTH>                    the width of the canvas",
    "      --height <HEIGHT>                  the height of the canvas",
    "      --workers <WORKERS>                the number of lanes of work",
    "      --queue-capacity <QUEUE_CAPACITY>  the most tasks that wait in a lane",
    "      --broadcast-ms <BROADCAST_MS>      the time between deltas",
    "      --snapshot-secs <SNAPSHOT_SECS>    the time between saves",
    "      --snapshot-path <SNAPSHOT_PATH>    the file to keep the canvas in",
    "      --no-snapshot                      keep the canvas in no file",
    "      --static-dir <STATIC_DIR>          the directory of the files to serve",
    "  -h, --help                             print this text",
    "  -V, --version                          print the version"]

/-- A path in the first message. -/
def showPath : Option String → String
  | none => "None"
  | some path => "Some(" ++ Text.quote path ++ ")"

def starting (c : Config) : String :=
  "starting " ++ name ++ " on " ++ c.address ++ " (snapshot: " ++ showPath c.snapshotPath ++
    ", static: " ++ showPath c.staticDir ++ ")"

/-- The environment is read, and must be good, before the arguments take the place of its
settings. -/
def settings (env : Environment) (args : Arguments) : Except (List String) Config :=
  match Config.ofEnvironment env with
  | .error e => .error ("invalid environment configuration" :: e.chain)
  | .ok c =>
    match (args.apply c).check with
    | .error e => .error [e.message]
    | .ok () => .ok (args.apply c)

def prepare (env : Environment) (args : List String) : Preparation :=
  match Arguments.parse args with
  | none => .usage
  | some .help => .help
  | some .version => .version
  | some (.run args) =>
    match settings env args with
    | .error chain => .failed chain
    | .ok c => .ready (starting c) c

def run (host : Host) (files : FileSystem) (env : Environment) (args : List String) : Outcome :=
  match prepare env args with
  | .usage => .usage
  | .help => .help
  | .version => .version
  | .failed chain => .failed [] chain
  | .ready message c =>
    match Server.start host c files with
    | .error e => .failed [message] e.chain
    | .ok server => .serving [message] server

def numbered (lines : List String) : List String :=
  lines.zipIdx.map fun (line, i) => "    " ++ toString i ++ ": " ++ line

/-- An error as it is shown at the end: the message, and under it what lies behind. -/
def report : List String → String
  | [] => ""
  | [top] => "Error: " ++ top ++ "\n"
  | [top, cause] => "Error: " ++ top ++ "\n\nCaused by:\n    " ++ cause ++ "\n"
  | top :: causes =>
    "Error: " ++ top ++ "\n\nCaused by:\n" ++ "\n".intercalate (numbered causes) ++ "\n"

end SharedCanvas.CommandLine
