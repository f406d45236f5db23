import Highlight1C.Text.Utf8

/-!
# File systems

What the program needs of a file system: what kind of thing a path leads to and how large it is, and
the bytes of a file. Each may fail.
-/

namespace Highlight1C

/-- Why a file system refuses. -/
inductive FileSystemError where
  /-- There is nothing at the path. -/
  | notFound
  /-- It may not be read. -/
  | denied
  /-- Any other reason, in the system's words. -/
  | other (text : String)
  deriving DecidableEq, Repr

namespace FileSystemError

/-- Part of the path is a file. -/
def notADirectory : FileSystemError := .other "Not a directory (os error 20)"

/-- A directory was to be read as a file. -/
def isADirectory : FileSystemError := .other "Is a directory (os error 21)"

/-- A name, or the whole path, is too long. -/
def nameTooLong : FileSystemError := .other "File name too long (os error 36)"

/-- The path holds a null character. -/
def nullInName : FileSystemError := .other "file name contained an unexpected NUL byte"

/-- What was read is not UTF-8. -/
def notUtf8 : FileSystemError := .other "stream did not contain valid UTF-8"

/-- The reason in the system's words. -/
def text : FileSystemError → String
  | .notFound => "No such file or directory (os error 2)"
  | .denied => "Permission denied (os error 13)"
  | .other text => text

end FileSystemError

/-- What a path leads to. -/
structure FileStatus where
  /-- Whether it is a file and not, for instance, a directory. -/
  isFile : Bool
  /-- Its bytes. -/
  size : Nat
  deriving DecidableEq, Repr

/-- A file system, as far as it is looked at. -/
structure FileSystem where
  /-- What a path leads to. -/
  status : String → Except FileSystemError FileStatus
  /-- The bytes of the file that a path leads to. -/
  read : String → Except FileSystemError (List UInt8)

/-- Bytes as a text, if they are UTF-8. -/
def textOfBytes (bytes : List UInt8) : Except FileSystemError (List Char) :=
  match Text.decode bytes with
  | .ok text => .ok text
  | .error _ => .error .notUtf8

namespace FileSystem

/-- The text of the file that a path leads to. -/
def readText (fs : FileSystem) (path : String) : Except FileSystemError (List Char) := do
  textOfBytes (← fs.read path)

/-- Whether a path leads anywhere. -/
def leadsAnywhere (fs : FileSystem) (path : String) : Bool :=
  (fs.status path).isOk

end FileSystem

end Highlight1C
