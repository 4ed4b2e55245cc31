import SharedCanvas.Http.Request
import SharedCanvas.Sha1
import SharedCanvas.Text.Base64

namespace SharedCanvas.Handshake

def maxHead : Nat := 8192

def guid : String := "258EAFA5-E914-47DA-95CA-C5AB0DC85B11"

/-- The number of bytes up to and with the first CR LF CR LF, and `seen` before them. -/
def headEndFrom (seen : Nat) : Bytes → Option Nat
  | 0x0D :: 0x0A :: 0x0D :: 0x0A :: _ => some (seen + 4)
  | _ :: rest => headEndFrom (seen + 1) rest
  | [] => none

def headEnd? (bs : Bytes) : Option Nat := headEndFrom 0 bs

def acceptKey (key : String) : String :=
  String.ofList (Base64.encode (Sha1.digest (Bytes.ofString key ++ Bytes.ofString guid)))

def upgradeResponse (accept : String) : Bytes :=
  Bytes.ofString <|
    "HTTP/1.1 101 Switching Protocols\r\n" ++
    "Upgrade: websocket\r\n" ++
    "Connection: Upgrade\r\n" ++
    "Sec-WebSocket-Accept: " ++ accept ++ "\r\n" ++
    "\r\n"

def upgradeRequest (host path key : String) : Bytes :=
  Bytes.ofString <|
    "GET " ++ path ++ " HTTP/1.1\r\n" ++
    "Host: " ++ host ++ "\r\n" ++
    "Upgrade: websocket\r\n" ++
    "Connection: Upgrade\r\n" ++
    "Sec-WebSocket-Key: " ++ key ++ "\r\n" ++
    "Sec-WebSocket-Version: 13\r\n" ++
    "\r\n"

inductive Verdict
  | incomplete
  /-- The answer to send, and the number of bytes the request took. -/
  | upgraded (response : Bytes) (consumed : Nat)
  /-- A request that does not ask for a WebSocket. -/
  | plain (request : Request) (consumed : Nat)
deriving DecidableEq, Repr

/-- The client's key without the white space around it, if anything is left of it. -/
def key? (r : Request) : Option String :=
  match r.header? "Sec-WebSocket-Key" with
  | none => none
  | some v =>
    let key := Text.trim v.toList
    if key.isEmpty then none else some (String.ofList key)

def judge (r : Request) (consumed : Nat) : Except HandshakeError Verdict :=
  if !r.wantsWebSocket then .ok (.plain r consumed)
  else if !Text.sameIgnoringCase r.method "GET" then .error (.notGet r.method)
  else
    match key? r with
    | none => .error .missingKey
    | some key => .ok (.upgraded (upgradeResponse (acceptKey key)) consumed)

/-- The verdict on what a connection has sent so far. -/
def process (bs : Bytes) : Except HandshakeError Verdict :=
  match headEnd? bs with
  | none => if bs.length > maxHead then .error (.headerTooLarge maxHead) else .ok .incomplete
  | some n =>
    if n > maxHead then .error (.headerTooLarge maxHead)
    else
      match Request.parse (bs.take n) with
      | .error e => .error e
      | .ok r => judge r n

end SharedCanvas.Handshake
