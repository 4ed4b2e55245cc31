import SharedCanvas.Bytes

namespace SharedCanvas.Path

def slash : UInt8 := 0x2F
def dot : UInt8 := 0x2E

def segments : Bytes → List Bytes
  | [] => [[]]
  | c :: cs =>
    if c == slash then [] :: segments cs
    else match segments cs with
      | s :: ss => (c :: s) :: ss
      | [] => [[c]]

/-- A segment that stays where it is. -/
def isIdle (segment : Bytes) : Bool := segment.isEmpty || segment == [dot]

def up : Bytes := [dot, dot]

def fileName? (path : Bytes) : Option Bytes :=
  match ((segments path).filter fun s => !isIdle s).getLast? with
  | none => none
  | some s => if s == up then none else some s

/-- What follows the last dot of the file name, if something stands before that dot. -/
def extension? (path : Bytes) : Option Bytes :=
  match fileName? path with
  | none => none
  | some name =>
    let after := (name.reverse.takeWhile (· != dot)).reverse
    if after.length + 1 < name.length then some after else none

/-- An absolute path on the right stands alone. -/
def join (base path : Bytes) : Bytes :=
  if path.head? == some slash || base.isEmpty then path
  else if base.getLast? == some slash then base ++ path
  else base ++ slash :: path

def directory (path : Bytes) : Bytes := (path.reverse.dropWhile (· != slash)).reverse

/-- A path beside `path`. Segments after its file name that stay where they are go away. -/
def withFileName (path name : Bytes) : Bytes :=
  match fileName? path with
  | none => join path name
  | some _ =>
    let idle := (segments path).reverse.takeWhile isIdle
    let trimmed := path.take (path.length - (idle.flatten.length + idle.length))
    directory trimmed ++ name

end SharedCanvas.Path
