import Z80Cost.Command.Run

/-!
The program: it fetches the files that the command line names, runs the command and writes what it
leaves behind.
-/

namespace Z80Cost.Command

def bytesOf (s : Text) : ByteArray := ⟨s.toArray⟩

def stringOf (s : Text) : String := (String.fromUTF8? (bytesOf s)).getD ""

/-- The system's number for a directory that is used as a file. -/
def directoryCode : UInt32 := 21

def pathFault : IO.Error → PathFault
  | .noFileOrDirectory .. => .missing
  | .permissionDenied .. => .denied
  | .invalidArgument .. => .invalid
  | .inappropriateType _ code _ => if code = directoryCode then .isDirectory else .notDirectory
  | _ => .isDirectory

def fetch (path : Text) : IO (Text × Except PathFault Stream) := do
  try
    let content ← IO.FS.readBinFile (stringOf path)
    return (path, .ok { bytes := content.data.toList })
  catch e =>
    match pathFault e with
    | .isDirectory => return (path, .ok (directoryStream path))
    | fault => return (path, .error fault)

/-- Opens a file to be written, so that a fault is known when the command runs. -/
def prepare (path : Text) : IO (Except PathFault Unit) := do
  if path.isEmpty then return .ok ()
  try
    discard (IO.FS.Handle.mk (stringOf path) .append)
    return .ok ()
  catch e => return .error (pathFault e)

/-- All of standard input, read to its end. -/
partial def drain (stream : IO.FS.Stream) (found : ByteArray) : IO ByteArray := do
  let chunk ← stream.read 65536
  if chunk.isEmpty then return found else drain stream (found ++ chunk)

def Invocation.paths (invocation : Invocation) : List Text :=
  match invocation.verb with
  | some .meter | some .report => invocation.arguments
  | _ => []

def Invocation.readsInput (invocation : Invocation) : Bool :=
  invocation.verb == some .meter && invocation.arguments.isEmpty

def fetchAll (invocation : Invocation) : IO Surroundings := do
  let files ← invocation.paths.mapM fetch
  let input ←
    if invocation.readsInput then drain (← IO.getStdin) .empty else pure .empty
  let creation ← prepare invocation.options.json
  return {
    input := { bytes := input.data.toList }
    file := fun path => (files.lookup path).getD (.error .missing)
    creation := fun _ => creation }

def noSurroundings : Surroundings where
  input := { bytes := [] }
  file _ := .error .missing
  creation _ := .error .missing

end Z80Cost.Command

open Z80Cost Command in
def main (arguments : List String) : IO UInt32 := do
  let arguments := arguments.map Text.ofString
  let around ←
    match Invocation.read arguments with
    | .ok invocation => fetchAll invocation
    | .error _ => pure noSurroundings
  let output := run around arguments
  for (path, content) in output.written do
    IO.FS.writeBinFile (stringOf path) (bytesOf content)
  (← IO.getStdout).write (bytesOf output.out)
  (← IO.getStderr).write (bytesOf output.err)
  return output.exitCode.toUInt32
