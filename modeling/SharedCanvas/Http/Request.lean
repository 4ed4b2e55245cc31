import SharedCanvas.Bytes
import SharedCanvas.Text.Ascii
import SharedCanvas.Text.Blank

namespace SharedCanvas

inductive HandshakeError
  | headerTooLarge (limit : Nat)
  | invalidUtf8
  | malformedRequestLine
  | malformedHeader
  | tooManyHeaders (limit : Nat)
  | notGet (method : String)
  | missingKey
deriving DecidableEq, Repr

def HandshakeError.message : HandshakeError → String
  | .headerTooLarge limit => s!"request header exceeds {limit} bytes"
  | .invalidUtf8 => "request header is not valid UTF-8"
  | .malformedRequestLine => "malformed request line"
  | .malformedHeader => "malformed header line"
  | .tooManyHeaders limit => s!"more than {limit} headers"
  | .notGet method => s!"websocket upgrade requires GET, got {method}"
  | .missingKey => "missing Sec-WebSocket-Key header"

structure Request where
  method : String
  path : String
  version : String
  headers : List (String × String)
deriving DecidableEq, Repr

namespace Request

def maxHeaders : Nat := 64

/-- The value of the first header of that name, in any case of its letters. -/
def header? (r : Request) (name : String) : Option String :=
  (r.headers.find? fun h => Text.sameIgnoringCase h.1 name).map Prod.snd

/-- The `Upgrade` header lists `websocket`. -/
def wantsWebSocket (r : Request) : Bool :=
  (r.header? "Upgrade").any fun v =>
    (Text.splitAt (· == ',') v.toList).any fun token =>
      Text.sameIgnoringCase (String.ofList (Text.trim token)) "websocket"

def readRequestLine (line : List Char) : Except HandshakeError (String × String × String) :=
  match Text.words line with
  | [method, path, version] =>
    if "HTTP/1.".toList.isPrefixOf version then
      .ok (String.ofList method, String.ofList path, String.ofList version)
    else .error .malformedRequestLine
  | _ => .error .malformedRequestLine

def readHeader (line : List Char) : Except HandshakeError (String × String) :=
  match line.dropWhile (· != ':') with
  | [] => .error .malformedHeader
  | _ :: value =>
    let name := Text.trim (line.takeWhile (· != ':'))
    if name.isEmpty then .error .malformedHeader
    else .ok (String.ofList name, String.ofList (Text.trim value))

/-- Empty lines are passed over. The number of headers is looked at before the line is. -/
def readHeaders (count : Nat) : List (List Char) → Except HandshakeError (List (String × String))
  | [] => .ok []
  | line :: lines =>
    if line.isEmpty then readHeaders count lines
    else if count == maxHeaders then .error (.tooManyHeaders maxHeaders)
    else
      match readHeader line with
      | .error e => .error e
      | .ok header =>
        match readHeaders (count + 1) lines with
        | .error e => .error e
        | .ok headers => .ok (header :: headers)

def parse (head : Bytes) : Except HandshakeError Request :=
  match Bytes.toString? head with
  | none => .error .invalidUtf8
  | some text =>
    match Text.lines text.toList with
    | [] => .error .malformedRequestLine
    | line :: lines =>
      match readRequestLine line with
      | .error e => .error e
      | .ok (method, path, version) =>
        match readHeaders 0 lines with
        | .error e => .error e
        | .ok headers => .ok ⟨method, path, version, headers⟩

end Request
end SharedCanvas
