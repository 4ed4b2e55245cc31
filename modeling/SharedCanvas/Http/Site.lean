import SharedCanvas.Http.Request
import SharedCanvas.Storage.FileSystem
import SharedCanvas.Text.Number

namespace SharedCanvas

inductive Refusal
  | forbidden
  | notFound
  | methodNotAllowed
deriving DecidableEq, Repr

namespace Refusal

def status : Refusal → Nat
  | forbidden => 403
  | notFound => 404
  | methodNotAllowed => 405

def reason : Refusal → String
  | forbidden => "Forbidden"
  | notFound => "Not Found"
  | methodNotAllowed => "Method Not Allowed"

end Refusal

/-- A root directory, and the file system it is in. -/
structure Site where
  root : Bytes
  files : FileSystem

namespace Site

def mimeTypes : List (String × String) := [
  ("html", "text/html; charset=utf-8"),
  ("htm", "text/html; charset=utf-8"),
  ("css", "text/css"),
  ("js", "application/javascript"),
  ("json", "application/json"),
  ("png", "image/png"),
  ("jpg", "image/jpeg"),
  ("jpeg", "image/jpeg"),
  ("gif", "image/gif"),
  ("svg", "image/svg+xml"),
  ("ico", "image/x-icon"),
  ("txt", "text/plain; charset=utf-8"),
  ("wasm", "application/wasm")]

def lowerByte (b : UInt8) : UInt8 := if 0x41 ≤ b && b ≤ 0x5A then b + 0x20 else b

def mimeType (path : Bytes) : String :=
  match Path.extension? path with
  | none => "application/octet-stream"
  | some ext =>
    match mimeTypes.find? fun m => Bytes.ofString m.1 == ext.map lowerByte with
    | some m => m.2
    | none => "application/octet-stream"

def head (status : Nat) (reason contentType : String) (length : Nat) : Bytes :=
  Bytes.ofString <|
    "HTTP/1.1 " ++ toString status ++ " " ++ reason ++ "\r\n" ++
    "Content-Type: " ++ contentType ++ "\r\n" ++
    "Content-Length: " ++ toString length ++ "\r\n" ++
    "Connection: close\r\n" ++
    "\r\n"

def refuse (r : Refusal) : Bytes :=
  let body := Bytes.ofString (toString r.status ++ " " ++ r.reason ++ "\n")
  head r.status r.reason "text/plain; charset=utf-8" body.length ++ body

def targetPath (target : String) : List Char :=
  target.toList.takeWhile fun c => c != '?' && c != '#'

def hasDoubleDot : List Char → Bool
  | '.' :: '.' :: _ => true
  | _ :: cs => hasDoubleDot cs
  | [] => false

/-- The path below the root; the root's own page if nothing is named. -/
def relative (target : String) : Except Refusal (List Char) :=
  let path := targetPath target
  if hasDoubleDot path || path.contains '\\' then .error .forbidden
  else
    let rest := path.dropWhile (· == '/')
    .ok (if rest.isEmpty then "index.html".toList else rest)

/-- The file that a request's target stands for. -/
def resolve (site : Site) (target : String) : Except Refusal Bytes :=
  match relative target with
  | .error r => .error r
  | .ok path => .ok (Path.join site.root (Bytes.ofString (String.ofList path)))

/-- The whole answer to a request. A file that cannot be read is not found. -/
def respond (site : Site) (request : Request) : Bytes :=
  let headOnly := Text.sameIgnoringCase request.method "HEAD"
  if !headOnly && !Text.sameIgnoringCase request.method "GET" then refuse .methodNotAllowed
  else
    match site.resolve request.path with
    | .error r => refuse r
    | .ok path =>
      match site.files.read path with
      | .error _ => refuse .notFound
      | .ok body =>
        head 200 "OK" (mimeType path) body.length ++ if headOnly then [] else body

end Site
end SharedCanvas
