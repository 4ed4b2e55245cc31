import SharedCanvas.Storage.Path

namespace SharedCanvas

inductive FileFault
  | notFound
  | isDirectory
  | notDirectory
  | nameTooLong
  | invalidName
  | alreadyExists
  | busy
deriving DecidableEq, Repr

def FileFault.message : FileFault → String
  | .notFound => "No such file or directory (os error 2)"
  | .isDirectory => "Is a directory (os error 21)"
  | .notDirectory => "Not a directory (os error 20)"
  | .nameTooLong => "File name too long (os error 36)"
  | .invalidName => "file name contained an unexpected NUL byte"
  | .alreadyExists => "File exists (os error 17)"
  | .busy => "Device or resource busy (os error 16)"

inductive Entry
  | file (content : Bytes)
  | directory
deriving DecidableEq, Repr

/-- The entries by their place: the names on the way from the root. -/
structure FileSystem where
  entries : List (List Bytes × Entry)
deriving DecidableEq, Repr

namespace FileSystem

abbrev Place := List Bytes

def empty : FileSystem := ⟨[]⟩

/-- The root is a directory without an entry of its own. -/
def lookup (fs : FileSystem) (place : Place) : Option Entry :=
  if place.isEmpty then some .directory
  else (fs.entries.find? fun e => e.1 == place).map Prod.snd

def erase (fs : FileSystem) (place : Place) : FileSystem :=
  ⟨fs.entries.filter fun e => e.1 != place⟩

def insert (fs : FileSystem) (place : Place) (entry : Entry) : FileSystem :=
  ⟨(fs.erase place).entries ++ [(place, entry)]⟩

def maxName : Nat := 255

def maxPath : Nat := 4095

/-- Goes from a directory to a place below it, name by name. All that is passed through must be
directories, and the end too. -/
def walk (fs : FileSystem) (place : Place) (names : List Bytes) : Except FileFault Place :=
  match fs.lookup place with
  | none => .error .notFound
  | some (.file _) => .error .notDirectory
  | some .directory =>
    match names with
    | [] => .ok place
    | s :: ss =>
      if Path.isIdle s then walk fs place ss
      else if s == Path.up then walk fs place.dropLast ss
      else if s.length > maxName then .error .nameTooLong
      else walk fs (place ++ [s]) ss

/-- What a path names. -/
structure Target where
  place : Place
  /-- A slash follows the name, which asks for a directory. -/
  slashed : Bool
deriving DecidableEq, Repr

/-- Follows a path to the entry that it names. There need not be one, but the directory for it must
be there. A path that ends in a segment that stays or goes up names no entry. -/
def locate (fs : FileSystem) (path : Bytes) : Except FileFault (Option Target) :=
  if path.contains 0 then .error .invalidName
  else if path.length > maxPath then .error .nameTooLong
  else if path.isEmpty then .error .notFound
  else
    match (Path.segments path).reverse.dropWhile List.isEmpty with
    | [] => .ok none
    | name :: above =>
      match fs.walk [] above.reverse with
      | .error e => .error e
      | .ok place =>
        if name == [Path.dot] || name == Path.up then .ok none
        else if name.length > maxName then .error .nameTooLong
        else .ok (some ⟨place ++ [name], path.getLast? == some Path.slash⟩)

def read (fs : FileSystem) (path : Bytes) : Except FileFault Bytes :=
  match fs.locate path with
  | .error e => .error e
  | .ok none => .error .isDirectory
  | .ok (some target) =>
    match fs.lookup target.place with
    | none => .error .notFound
    | some .directory => .error .isDirectory
    | some (.file content) => if target.slashed then .error .notDirectory else .ok content

def write (fs : FileSystem) (path content : Bytes) : Except FileFault FileSystem :=
  match fs.locate path with
  | .error e => .error e
  | .ok none => .error .isDirectory
  | .ok (some target) =>
    if target.slashed || fs.lookup target.place == some .directory then .error .isDirectory
    else .ok (fs.insert target.place (.file content))

/-- Moves a file over whatever file is at the target, in one step. -/
def rename (fs : FileSystem) (source target : Bytes) : Except FileFault FileSystem :=
  match fs.locate source, fs.locate target with
  | .error e, _ => .error e
  | _, .error e => .error e
  | .ok (some old), .ok (some new) =>
    match fs.lookup old.place with
    | none => .error .notFound
    | some .directory => .error .isDirectory
    | some (.file content) =>
      if old.slashed || new.slashed then .error .notDirectory
      else if fs.lookup new.place == some .directory then .error .isDirectory
      else .ok ((fs.erase old.place).insert new.place (.file content))
  | _, _ => .error .busy

def makeDirectory (fs : FileSystem) (path : Bytes) : Except FileFault FileSystem :=
  match fs.locate path with
  | .error e => .error e
  | .ok none => .error .alreadyExists
  | .ok (some target) =>
    if (fs.lookup target.place).isSome then .error .alreadyExists
    else .ok (fs.insert target.place .directory)

def placeOf (path : Bytes) : Place := (Path.segments path).filter fun s => !Path.isIdle s

def prepare (fs : FileSystem) (path : Bytes) : FileSystem :=
  let place := placeOf path
  let above := (List.range place.length).drop 1 |>.map fun n => place.take n
  above.foldl (fun fs p => fs.insert p .directory) fs

def install (fs : FileSystem) (path content : Bytes) : FileSystem :=
  (fs.prepare path).insert (placeOf path) (.file content)

def names (fs : FileSystem) (place : Place) : List Bytes :=
  fs.entries.filterMap fun e => if e.1.dropLast == place then e.1.getLast? else none

@[simp] theorem lookup_nil (fs : FileSystem) : fs.lookup [] = some .directory := rfl

theorem lookup_erase (fs : FileSystem) {p q : Place} (hq : q ≠ []) :
    (fs.erase p).lookup q = if q = p then none else fs.lookup q := by
  simp only [lookup, List.isEmpty_iff, hq, if_false, erase, List.find?_filter]
  split
  · subst_vars
    simp
  · rename_i h
    congr 2
    funext e
    by_cases he : e.1 = q <;> simp [he, h]

theorem lookup_insert (fs : FileSystem) {p q : Place} (entry : Entry) (hq : q ≠ []) :
    (fs.insert p entry).lookup q = if q = p then some entry else fs.lookup q := by
  have he := lookup_erase fs (p := p) hq
  simp only [lookup, List.isEmpty_iff, hq, if_false] at he
  simp only [lookup, List.isEmpty_iff, hq, if_false, insert, List.find?_append]
  by_cases h : q = p
  · subst h
    simp only [if_true, Option.map_eq_none_iff] at he
    simp [he]
  · have hp : (p == q) = false := by simpa using fun hh : p = q => h hh.symm
    simp only [h, if_false] at he ⊢
    simp [hp, he]

end FileSystem
end SharedCanvas
