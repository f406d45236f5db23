import Highlight1C.Files.FileSystem
import Highlight1C.Path

/-!
# Directory trees

A file system held in memory: files and directories below a working directory, looked up by the rules
of a Unix system. Every part of a path but the last must be a directory, and so must the last if a
slash or a dot follows it. Nothing outside the working directory can be read.
-/

namespace Highlight1C

/-- A file, or a directory. -/
inductive Node where
  /-- A file: bytes, and a number of zero bytes after them. -/
  | file (bytes : List UInt8) (zeros : Nat)
  /-- A directory. -/
  | directory
  deriving DecidableEq, Repr

/-- Files and directories by the names on the way to them; the directories on the way to a file need
not be listed. -/
abbrev Tree := List (List String × Node)

namespace Tree

/-- Where a walk through directories stands. -/
inductive Place where
  /-- At the entry to which these names lead, last name first. -/
  | inside (names : List String)
  /-- Above the working directory. -/
  | outside
  deriving DecidableEq, Repr

/-- What stands at the end of a way, given last name first. -/
def node? (t : Tree) (names : List String) : Option Node :=
  let way := names.reverse
  match t.lookup way with
  | some node => some node
  | none => if way.isEmpty || t.any (fun (other, _) => way.isPrefixOf other) then some .directory
            else none

/-- Whether a walk stands at a directory. -/
def isDirectory (t : Tree) : Place → Bool
  | .inside names => t.node? names == some .directory
  | .outside => true

/-- The longest name, in bytes. -/
def maxNameBytes : Nat := 255

/-- Bytes that a path must stay below. -/
def pathByteBound : Nat := 4096

/-- Goes on from a place by one part of a path. -/
def enter (t : Tree) (place : Place) (part : String) : Except FileSystemError Place :=
  if !t.isDirectory place then .error .notADirectory
  else if part = "" || part = "." then .ok place
  else if part = ".." then
    match place with
    | .inside (_ :: above) => .ok (.inside above)
    | _ => .ok .outside
  else if part.utf8ByteSize > maxNameBytes then .error .nameTooLong
  else
    match place with
    | .inside names =>
      if (t.node? (part :: names)).isSome then .ok (.inside (part :: names)) else .error .notFound
    | .outside => .error .notFound

/-- Where a path leads. -/
def locate (t : Tree) (path : String) : Except FileSystemError Place :=
  if path = "" then .error .notFound
  else if path.contains '\x00' then .error .nullInName
  else if path.utf8ByteSize ≥ pathByteBound then .error .nameTooLong
  else
    match Path.parts path with
    | "" :: rest => rest.foldlM t.enter .outside
    | parts => parts.foldlM t.enter (.inside [])

/-- What a path leads to. -/
def lookUp (t : Tree) (path : String) : Except FileSystemError Node := do
  match ← t.locate path with
  | .inside names => return (t.node? names).getD .directory
  | .outside => return .directory

/-- The file system of a tree. -/
def fileSystem (t : Tree) : FileSystem where
  status path := do
    match ← t.lookUp path with
    | .file bytes zeros => return ⟨true, bytes.length + zeros⟩
    | .directory => return ⟨false, 0⟩
  read path := do
    match ← t.lookUp path with
    | .file bytes zeros => return bytes ++ List.replicate zeros 0
    | .directory => throw .isADirectory

end Tree

end Highlight1C
