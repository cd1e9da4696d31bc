import Z80Cost.Meter

/-!
Files as a command sees them, and a tree of files held in memory.
-/

namespace Z80Cost.Command

inductive PathFault where
  | missing
  | notDirectory
  | isDirectory
  | denied
  | tooLong
  | invalid
  deriving DecidableEq

def PathFault.message : PathFault → Text
  | .missing => "no such file or directory"
  | .notDirectory => "not a directory"
  | .isDirectory => "is a directory"
  | .denied => "permission denied"
  | .tooLong => "file name too long"
  | .invalid => "invalid argument"

def openMessage (path : Text) (fault : PathFault) : Text :=
  "open " ++ path ++ ": " ++ fault.message

/-- A directory can be opened, but reading it fails. -/
def directoryStream (path : Text) : Stream where
  bytes := []
  fault := some ("read " ++ path ++ ": " ++ PathFault.isDirectory.message)

/-- What a command finds outside: standard input, what opening a path gives, and whether a file can
be created there. -/
structure Surroundings where
  input : Stream
  file : Text → Except PathFault Stream
  creation : Text → Except PathFault Unit

/-! Files in memory -/

inductive Node where
  | file (content : Text)
  | directory
  deriving DecidableEq

/-- Files and directories by path; directories on the way to one are implied. -/
abbrev Files := List (Text × Node)

namespace Files

def steps (path : Text) : List Text := path.splitOn ('/' : UInt8)

def isTrivial (name : Text) : Bool := name.isEmpty || name == "."

/-- The names of a stored path, without those that lead nowhere. -/
def placeOf (path : Text) : List Text := (steps path).filter (!isTrivial ·)

/-- The name that leads to the directory above. -/
def above : Text := ".."

/-- The directory that absolute paths start from. -/
def root : Text := "/"

/-- Whether a place is the directory that paths start from or one above it; their other contents are
not known. -/
def isBase (place : List Text) : Bool := place == [root] || place.all (· == above)

/-- What is at a place, which is given by the names that lead to it. -/
def node? (files : Files) (place : List Text) : Option Node :=
  if isBase place then some .directory
  else
    match files.find? (fun (path, _) => placeOf path == place) with
    | some (_, node) => some node
    | none =>
        if files.any fun (path, _) => place.isPrefixOf (placeOf path) then some .directory
        else none

def maxName : Nat := 255

def maxPath : Nat := 4096

def parent (place : List Text) : List Text :=
  if place == [root] then place
  else if isBase place then place ++ [above]
  else place.dropLast

def walkStep (files : Files) (place : List Text) (name : Text) : Except PathFault (List Text) :=
  match files.node? place with
  | none => .error .missing
  | some (.file _) => .error .notDirectory
  | some .directory =>
      if isTrivial name then .ok place
      else if name == above then .ok (parent place)
      else if maxName < name.length then .error .tooLong
      else .ok (place ++ [name])

def start (path : Text) : List Text := if path.head? = some ('/' : UInt8) then [root] else []

/-- Whether a path can be looked up at all. -/
def check (path : Text) : Except PathFault Unit :=
  if path.contains (0 : UInt8) then .error .invalid
  else if path.isEmpty then .error .missing
  else if maxPath ≤ path.length then .error .tooLong
  else .ok ()

/-- The place that a path leads to; the last name need not exist. -/
def walk (files : Files) (path : Text) : Except PathFault (List Text) := do
  check path
  (steps path).foldlM (walkStep files) (start path)

def stream (files : Files) (path : Text) : Except PathFault Stream := do
  match files.node? (← files.walk path) with
  | none => throw .missing
  | some (.file content) => return { bytes := content }
  | some .directory => return directoryStream path

def withoutSlashes (path : Text) : Text := (path.reverse.dropWhile (· == ('/' : UInt8))).reverse

/-- Whether a file can be created at a path. One that ends with a slash names a directory. -/
def creation (files : Files) (path : Text) : Except PathFault Unit := do
  check path
  let place ← (steps (withoutSlashes path)).foldlM (walkStep files) (start path)
  if Text.endsWith "/" path ∨ files.node? place = some .directory then throw .isDirectory

def surroundings (files : Files) (input : Text) : Surroundings where
  input := { bytes := input }
  file := files.stream
  creation := files.creation

/-- Whether a place is not below the directory that paths start from. -/
def isOutside (place : List Text) : Bool :=
  place.head? == some above || place.head? == some root

/-- The files that were written with another content than they had, under their full paths. -/
def changes (files : Files) (written : List (Text × Text)) : List (Text × Text) :=
  written.filterMap fun (path, content) =>
    match files.walk path with
    | .ok place =>
        if isOutside place ∨ files.node? place = some (.file content) then none
        else some (Text.join "/" place, content)
    | .error _ => none

end Files

end Z80Cost.Command
