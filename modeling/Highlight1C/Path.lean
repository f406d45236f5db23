/-!
# File paths

A path is kept as it was spelled, and compared by the steps it takes: slashes that follow one another
count once, and a `.` counts only where a path begins with it. So `a//b` and `a/./b` are one path,
and `./a` and `a` are two.
-/

namespace Highlight1C

/-- One step of a path. -/
inductive PathStep where
  /-- From the root of the file system. -/
  | root
  /-- From where one stands. -/
  | here
  /-- To the directory above. -/
  | up
  /-- To an entry of a directory. -/
  | entry (name : String)
  deriving DecidableEq, Repr

namespace PathStep

/-- Which steps come before which, where their kinds differ. -/
def rank : PathStep → Nat
  | .root => 0
  | .here => 1
  | .up => 2
  | .entry _ => 3

/-- Steps are ordered by kind, and entries by name. -/
def order : PathStep → PathStep → Ordering
  | .entry a, .entry b => compare a b
  | a, b => compare a.rank b.rank

end PathStep

namespace Path

/-- The parts of a text between slashes, given the characters of the open part and the parts before
it, both last first. -/
def partsFrom (done : List String) (pending : List Char) : List Char → List String
  | [] => (String.ofList pending.reverse :: done).reverse
  | c :: cs =>
    if c = '/' then partsFrom (String.ofList pending.reverse :: done) [] cs
    else partsFrom done (c :: pending) cs

/-- The parts of a path between its slashes. -/
def parts (path : String) : List String :=
  partsFrom [] [] path.toList

/-- The step that a part stands for when it is not the first; empty parts and `.` stand for none. -/
def innerStep? (part : String) : Option PathStep :=
  if part = "" || part = "." then none
  else if part = ".." then some .up
  else some (.entry part)

/-- The steps of a path. -/
def steps (path : String) : List PathStep :=
  match parts path with
  | [] => []
  | first :: rest =>
    let inner := rest.filterMap innerStep?
    if first = "" then (if rest.isEmpty then [] else .root :: inner)
    else if first = "." then .here :: inner
    else (innerStep? first).toList ++ inner

/-- Lists of steps are ordered like words in a dictionary. -/
def orderSteps : List PathStep → List PathStep → Ordering
  | [], [] => .eq
  | [], _ :: _ => .lt
  | _ :: _, [] => .gt
  | a :: as, b :: bs => (a.order b).then (orderSteps as bs)

/-- Paths are ordered by their steps. -/
def order (a b : String) : Ordering :=
  orderSteps (steps a) (steps b)

/-- Whether two paths take the same steps. -/
def same (a b : String) : Bool :=
  steps a == steps b

/-- A path followed from the end of another. One that starts at the root stands for itself. -/
def join (base path : String) : String :=
  if path.startsWith "/" then path
  else if base = "" || base.endsWith "/" then base ++ path
  else base ++ "/" ++ path

/-- The name of the entry that a path leads to, if its last step is one. -/
def fileName? (path : String) : Option String :=
  match (steps path).getLast? with
  | some (.entry name) => some name
  | _ => none

/-- What follows the last dot of a file name. A name without a dot, or with its only dot in front, has
no extension; a name that ends in a dot has an empty one. -/
def extension? (path : String) : Option String := do
  let name ← fileName? path
  let backwards := name.toList.reverse
  let after := backwards.takeWhile (· != '.')
  match backwards.drop after.length with
  | _ :: _ :: _ => some (String.ofList after.reverse)
  | _ => none

end Path

end Highlight1C
