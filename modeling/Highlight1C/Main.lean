import Highlight1C.Command.Run
import Std.Time

/-!
# The executable

Looks at the world once, when the program is started, and hands it to `Command.run`: the environment
variables that the program depends on, the files that the command line names, standard input if it
is asked for, and the time. What the program writes is written when all work is done.
-/

namespace Highlight1C.Command

/-- What a failure of the system means. -/
def systemError : IO.Error → FileSystemError
  | .noFileOrDirectory .. => .notFound
  | .permissionDenied .. => .denied
  | e => .other (toString e)

/-- What was found at a path. -/
structure Found where
  path : String
  status : Except FileSystemError FileStatus
  bytes : Except FileSystemError (List UInt8)

/-- The file system in which just these things were found. -/
def fileSystemOf (found : List Found) : FileSystem where
  status path := ((found.find? (·.path == path)).map (·.status)).getD (.error .notFound)
  read path := ((found.find? (·.path == path)).map (·.bytes)).getD (.error .notFound)

/-- Runs an action of the system, and keeps its failure. -/
def attempt {α : Type} (action : IO α) : IO (Except FileSystemError α) :=
  try
    return .ok (← action)
  catch e =>
    return .error (systemError e)

/-- Looks at a path. Files that are too large to be highlighted are not read. -/
def look (path : String) : IO Found := do
  let place := (← IO.currentDir) / path
  let status ← attempt do
    let info ← place.metadata
    return FileStatus.mk (info.type matches .file) info.byteSize.toNat
  let bytes ← attempt do
    match status with
    | .ok status =>
      if Limits.current.maxFileSize < status.size then return []
      else return (← IO.FS.readBinFile place).toList
    | .error _ => return (← IO.FS.readBinFile place).toList
  return ⟨path, status, bytes⟩

/-- Reads all of a stream. -/
partial def readAll (input : IO.FS.Stream) (read : ByteArray) : IO ByteArray := do
  let chunk ← input.read 65536
  if chunk.isEmpty then return read else readAll input (read ++ chunk)

/-- The environment variables that are set, among those that the program depends on. -/
def environment : IO Environment := do
  let names := Preferences.variables ++ Text.Style.variableNames ++
    [Log.specificationVariable, Log.styleVariable]
  let values ← names.mapM fun name => do
    return (← IO.getEnv name).map (name, ·)
  return values.filterMap id

/-- The time now, in universal time. -/
def now : IO Log.Clock := do
  let time := Std.Time.DateTime.ofTimestamp (← Std.Time.Timestamp.now) Std.Time.TimeZone.ZoneRules.UTC
  return ⟨time.format "uuuu-MM-dd'T'HH:mm:ss.SSSSSSSSSxxx", "0.00"⟩

/-- What a command line can see of the world. -/
def observe (args : List String) : IO World := do
  let (paths, fromStdin) := match Options.parse args with
    | .ok options => (options.files ++ options.config.toList, options.files.contains "-")
    | .error _ => ([], false)
  let stdin ← if fromStdin then readAll (← IO.getStdin) .empty else pure .empty
  return {
    files := fileSystemOf (← paths.mapM look)
    stdin := stdin.toList
    environment := ← environment
    clock := ← now }

end Highlight1C.Command

/-- Runs the program, and gives its exit code. -/
def main (args : List String) : IO UInt32 := do
  match Highlight1C.Command.run args (← Highlight1C.Command.observe args) with
  | .ok outcome =>
    (← IO.getStdout).putStr outcome.stdout
    (← IO.getStderr).putStr outcome.stderr
    return outcome.exit.toUInt32
  | .error fault =>
    (← IO.getStderr).putStr s!"internal error: {repr fault}\n"
    return 101
