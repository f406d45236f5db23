import Highlight1C.Position

/-!
# Reading a source from left to right

A cursor stands at a position of its input. It looks ahead without moving, or moves forward over
whole characters; it never moves back. `Cursor.run` answers one request. A request may break a
contract; `run` says so, and gives the cursor as the request leaves it.
-/

namespace Highlight1C

/-- A source, and the place where reading goes on. -/
structure Cursor where
  /-- The whole source. -/
  input : List Char
  /-- Where reading goes on. -/
  position : Position := .start
  deriving DecidableEq, Repr

namespace Cursor

/-- What is still to be read. -/
def rest (c : Cursor) : Except Fault (List Char) :=
  match Text.cut? c.position.offset c.input with
  | some (_, rest) => .ok rest
  | none => .error .badCut

/-- Whether everything has been read. -/
def atEnd (c : Cursor) : Bool :=
  Text.byteLength c.input ≤ c.position.offset

/-- The character `n` places ahead, the next one for `n = 0`. -/
def ahead (c : Cursor) (n : Nat) : Except Fault (Option Char) := do
  return (← c.rest)[n]?

/-- Whether the given text comes next. -/
def startsWith (c : Cursor) (text : List Char) : Except Fault Bool := do
  return text.isPrefixOf (← c.rest)

/-- Reads one character, if there is one. -/
def bump (c : Cursor) : Except Fault (Option Char × Cursor) := do
  match ← c.rest with
  | [] => return (none, c)
  | ch :: _ => return (some ch, { c with position := ← c.position.advance ch })

/-- Reads exactly `n` bytes, which must end between two characters. -/
def take (c : Cursor) (n : Nat) : Except Fault (List Char × Cursor) := do
  match Text.cut? n (← c.rest) with
  | none => throw .badCut
  | some (text, _) => return (text, { c with position := ← c.position.advanceText text })

/-- A condition on characters that are read one after the other. What it says of a character may
depend on those that it has been asked about before, and it may have no answer. -/
structure Condition where
  /-- Whether the next character is to be read, given those before it, last first. -/
  holds : (before : List Char) → Char → Except Fault Bool

/-- A condition on each character alone, which always has an answer. -/
instance : Coe (Char → Bool) Condition := ⟨fun p => ⟨fun _ c => .ok (p c)⟩⟩

/-- Reads on while a condition holds, with the characters already read under it in `before`, last
first, and what comes next. Each character that is read moves the cursor, so if there is no answer
about one of them, or the position after it would be out of range, the cursor is left in front of
that one. -/
def takeWhileFrom (c : Cursor) (p : Condition) (before : List Char) :
    List Char → Except Fault Unit × Cursor
  | [] => (.ok (), c)
  | ch :: rest =>
    match p.holds before ch with
    | .error fault => (.error fault, c)
    | .ok false => (.ok (), c)
    | .ok true =>
      match c.position.advance ch with
      | .ok next => takeWhileFrom { c with position := next } p (ch :: before) rest
      | .error fault => (.error fault, c)

/-- Reads characters while a condition holds, and counts their bytes. -/
def takeWhile (c : Cursor) (p : Condition) : Except Fault Nat × Cursor :=
  match c.rest with
  | .error fault => (.error fault, c)
  | .ok rest =>
    let (done, c') := c.takeWhileFrom p [] rest
    (done.map fun _ => c'.position.offset - c.position.offset, c')

/-- The text between an earlier position and the cursor. -/
def sliceFrom (c : Cursor) (start : Position) : Except Fault (List Char) :=
  match Text.slice? start.offset c.position.offset c.input with
  | some text => .ok text
  | none => .error .badCut

/-- Reads up to the end of the line, and leaves the line feed unread. -/
def takeLine (c : Cursor) : Except Fault (List Char) × Cursor :=
  let notFeed : Char → Bool := (· != '\n')
  let (count, c') := c.takeWhile notFeed
  (count.bind fun _ => c'.sliceFrom c.position, c')

/-- The span from an earlier position to the cursor. -/
def spanFrom (c : Cursor) (start : Position) : Except Fault Span :=
  Span.between start c.position

/-- What can be asked of a cursor. -/
inductive Request where
  | ahead (n : Nat)
  | bump
  | take (bytes : Nat)
  | takeWhile (p : Condition)
  | takeLine
  | startsWith (text : List Char)
  | rest
  | input
  | atEnd
  | sliceFrom (start : Position)
  | spanFrom (start : Position)

/-- What a cursor answers. -/
inductive Answer where
  | char (c : Option Char)
  | text (t : List Char)
  | bytes (n : Nat)
  | truth (b : Bool)
  | span (s : Span)
  deriving DecidableEq, Repr

/-- The outcome of a move that is made at its end: if it fails before, the cursor is where it was. -/
def settle {α : Type} (c : Cursor) : Except Fault (α × Cursor) → Except Fault α × Cursor
  | .ok (a, c') => (.ok a, c')
  | .error fault => (.error fault, c)

/-- Answers a request, or says which contract it breaks, and gives the cursor as it is then. -/
def run (c : Cursor) : Request → Except Fault Answer × Cursor
  | .ahead n => ((c.ahead n).map .char, c)
  | .bump =>
    let (ch, c) := c.settle c.bump
    (ch.map .char, c)
  | .take n =>
    let (text, c) := c.settle (c.take n)
    (text.map .text, c)
  | .takeWhile p =>
    let (count, c) := c.takeWhile p
    (count.map .bytes, c)
  | .takeLine =>
    let (line, c) := c.takeLine
    (line.map .text, c)
  | .startsWith text => ((c.startsWith text).map .truth, c)
  | .rest => (c.rest.map .text, c)
  | .input => (.ok (.text c.input), c)
  | .atEnd => (.ok (.truth c.atEnd), c)
  | .sliceFrom start => ((c.sliceFrom start).map .text, c)
  | .spanFrom start => ((c.spanFrom start).map .span, c)

end Cursor

end Highlight1C
