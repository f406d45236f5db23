import Highlight1C.Files.FileSystem
import Highlight1C.Logging
import Highlight1C.Text.Parts
import Highlight1C.Text.Utf8

/-!
# Reading source files

A source file is a regular file of limited size in UTF-8; a byte order mark in front is dropped.
`SourceFile.load` checks and reads one, and logs what it finds.
-/

namespace Highlight1C

/-- Why a source file cannot be read. -/
inductive FileError where
  | notFound (path : String)
  | notAFile (path : String)
  | tooLarge (size limit : Nat)
  | denied (path : String)
  /-- The file is not UTF-8 from this byte on. -/
  | invalidEncoding (path : String) (validUpTo : Nat)
  | unreadable (message : String)
  deriving DecidableEq, Repr

namespace FileError

/-- What is said of a file that cannot be read. -/
def message : FileError → String
  | .notFound path => s!"File not found: {path}"
  | .notAFile path => s!"Not a regular file: {path}"
  | .tooLarge size limit => s!"File too large: {size} bytes (max: {limit})"
  | .denied path => s!"Permission denied: {path}"
  | .invalidEncoding path validUpTo =>
    s!"Invalid UTF-8 encoding in file: {path} (at byte {validUpTo})"
  | .unreadable message => s!"I/O error reading file: {message}"

/-- The code of an event about a file that cannot be read. -/
def code : FileError → Log.Code
  | .notFound _ => .fileNotFound
  | .tooLarge _ _ => .fileTooLarge
  | .denied _ => .permissionDenied
  | .invalidEncoding _ _ => .invalidEncoding
  | .notAFile _ | .unreadable _ => .readFailure

/-- The error for what the file system says of a path. -/
def ofSystem (path : String) : FileSystemError → FileError
  | .notFound => .notFound path
  | .denied => .denied path
  | .other text => .unreadable s!"{path}: {text}"

end FileError

/-- What is known about a source file. -/
structure FileInfo where
  path : String
  /-- Its bytes, byte order mark included. -/
  size : Nat
  /-- Its extension in lower case. -/
  extension : Option String
  /-- Its lines; a line feed at the end begins no further line. -/
  lineCount : Nat
  /-- Whether it has a byte order mark. -/
  hadMark : Bool
  deriving DecidableEq, Repr

namespace FileInfo

/-- Divides a size by 1024 until it is below 1024 or the units are used up. -/
def inUnits (size : Number.Fraction) (unit : String) : List String → Number.Fraction × String
  | [] => (size, unit)
  | next :: larger =>
    if 1024 * size.den ≤ size.num then inUnits ⟨size.num, size.den * 1024⟩ next larger
    else (size, unit)

/-- A number of bytes for people: in the largest unit that fits, with two places unless it is in
bytes. -/
def readableSize (size : Nat) : String :=
  match inUnits (Number.Fraction.nearest ⟨size, 1⟩) "B" ["KB", "MB", "GB"] with
  | (_, "B") => s!"{size} B"
  | (amount, unit) => s!"{amount.fixed 2} {unit}"

/-- Whether a size is that of a large file. -/
def isLargeSize (size : Nat) : Bool :=
  Limits.current.largeFileThreshold < size

end FileInfo

/-- A source file that has been read. -/
structure SourceFile where
  text : List Char
  info : FileInfo
  deriving DecidableEq, Repr

namespace SourceFile

/-- The size of a file that may be read. -/
def check (fs : FileSystem) (path : String) : Except FileError Nat :=
  match fs.status path with
  | .error e => .error (.ofSystem path e)
  | .ok status =>
    if !status.isFile then .error (.notAFile path)
    else if Limits.current.maxFileSize < status.size then
      .error (.tooLarge status.size Limits.current.maxFileSize)
    else .ok status.size

/-- Bytes without the byte order mark in front, and whether there was one. -/
def dropMark (bytes : List UInt8) : List UInt8 × Bool :=
  if Text.byteOrderMark.isPrefixOf bytes then (bytes.drop Text.byteOrderMark.length, true)
  else (bytes, false)

/-- Logs that a file has been read. -/
def noteRead (info : FileInfo) (timed : Bool) (logging : Logging) : Logging :=
  let figures := if !timed then [] else
    [("size_human", FileInfo.readableSize info.size), ("lines", toString info.lineCount),
     ("bom", Log.Event.truth info.hadMark), ("duration_ms", logging.clock.elapsed)]
  logging.success .fileDone "File read" (("file", info.path) :: figures)

/-- What is known about a file, and its text. -/
def describe (path : String) (size : Nat) (hadMark : Bool) (text : List Char) : SourceFile where
  text := text
  info :=
    { path, size, hadMark
      extension := (Path.extension? path).map fun e => String.ofList (Text.lower e.toList)
      lineCount := (Text.lines text).length }

/-- Checks and reads a source file; with `timed`, figures about it are logged as well. -/
def load (fs : FileSystem) (path : String) (timed : Bool) (logging : Logging) :
    Except FileError SourceFile × Logging :=
  let logging := logging.debug "Starting file processing" none [("file", path)]
  match check fs path with
  | .error e => (.error e, logging.error e.code e.message none [("file", path)])
  | .ok size =>
    match fs.read path with
    | .error reason =>
      let e := FileError.ofSystem path reason
      (.error e, logging.error e.code "Failed to read file" none
        [("file", path), ("io_error", reason.text)])
    | .ok bytes =>
      let (body, hadMark) := dropMark bytes
      match Text.decode body with
      | .error validUpTo =>
        let mark := if hadMark then Text.byteOrderMark.length else 0
        let e := FileError.invalidEncoding path (validUpTo + mark)
        (.error e, logging.error e.code "File is not valid UTF-8" none
          [("file", path), ("valid_up_to", toString validUpTo)])
      | .ok text =>
        let file := describe path size hadMark text
        let logging :=
          if FileInfo.isLargeSize size then
            logging.debug "Large file" none
              [("file", path), ("size", FileInfo.readableSize size)]
          else logging
        (.ok file, noteRead file.info timed logging)

end SourceFile

end Highlight1C
