import Highlight1C.Text.Class

/-!
# Patterns of text

A pattern describes texts: single characters out of a set, conditions on the place between two
characters, one pattern after another, a choice of two, and repetition. `Pattern.occursIn` says
whether any part of a text is as a pattern describes it.

The search keeps a row of marks, one for each place of the text, at its ends and between its
characters. `Pattern.reach` moves the marks from the places where a pattern may begin to those where
it may end, so all parts of the text are tried at once.
-/

namespace Highlight1C

/-- A set of characters. -/
inductive CharSet where
  /-- No character. -/
  | nothing
  /-- All characters from the first to the last. -/
  | range (first last : Char)
  /-- All characters that are not in a set. -/
  | others (s : CharSet)
  /-- Those in either of two sets. -/
  | union (a b : CharSet)
  /-- Those in both. -/
  | inter (a b : CharSet)
  /-- Those in the first and not in the second. -/
  | diff (a b : CharSet)
  /-- Those in just one of the two. -/
  | symmDiff (a b : CharSet)
  /-- Those that are in a set in either case, if they are letters below U+0080. -/
  | anyCase (s : CharSet)
  deriving DecidableEq, Repr

namespace CharSet

/-- A letter below U+0080 in the other case. -/
def otherCase (c : Char) : Char :=
  if c.isUpper then c.toLower else c.toUpper

/-- Whether a character is in a set. -/
def contains : CharSet → Char → Bool
  | .nothing, _ => false
  | .range first last, c => first ≤ c && c ≤ last
  | .others s, c => !s.contains c
  | .union a b, c => a.contains c || b.contains c
  | .inter a b, c => a.contains c && b.contains c
  | .diff a b, c => a.contains c && !b.contains c
  | .symmDiff a b, c => a.contains c != b.contains c
  | .anyCase s, c => s.contains c || s.contains (otherCase c)

/-- The set of one character. -/
def only (c : Char) : CharSet :=
  .range c c

/-- The set of all characters in any of some ranges. -/
def ofRanges (ranges : List (Char × Char)) : CharSet :=
  ranges.foldr (fun (first, last) s => .union (.range first last) s) .nothing

end CharSet

/-- What the place between two characters may be to a word. -/
inductive WordEdge where
  /-- Either edge. -/
  | any
  /-- Neither edge. -/
  | neither
  /-- The edge where a word begins. -/
  | start
  /-- The edge where a word ends. -/
  | stop
  /-- No word is before it. -/
  | noneBefore
  /-- No word is after it. -/
  | noneAfter
  deriving DecidableEq, Repr

/-- Whether a place is such an edge, by whether there are word characters before and after it. -/
def WordEdge.holds : WordEdge → Bool → Bool → Bool
  | .any, before, after => before != after
  | .neither, before, after => before == after
  | .start, before, after => !before && after
  | .stop, before, after => before && !after
  | .noneBefore, before, _ => !before
  | .noneAfter, _, after => !after

/-- A condition on the place between two characters. -/
inductive Boundary where
  /-- The text begins here. -/
  | textStart
  /-- The text ends here. -/
  | textStop
  /-- A line begins here; with `returns`, a carriage return ends one too. -/
  | lineStart (returns : Bool)
  /-- A line ends here. -/
  | lineStop (returns : Bool)
  /-- An edge of a word of letters, digits and underscores below U+0080. -/
  | word (edge : WordEdge)
  deriving DecidableEq, Repr

/-- Whether a place fulfils a condition, by the characters before and after it. -/
def Boundary.holds (before after : Option Char) : Boundary → Bool
  | .textStart => before.isNone
  | .textStop => after.isNone
  | .lineStart false => before.all (· == '\n')
  | .lineStop false => after.all (· == '\n')
  | .lineStart true => before.all fun c => c == '\n' || (c == '\r' && after != some '\n')
  | .lineStop true => after.all fun c => c == '\r' || (c == '\n' && before != some '\r')
  | .word edge => edge.holds (before.any Text.isAsciiWordChar) (after.any Text.isAsciiWordChar)

/-- A description of texts. -/
inductive Pattern where
  /-- The empty text. -/
  | empty
  /-- One character of a set. -/
  | one (set : CharSet)
  /-- The empty text at places that fulfil a condition. -/
  | place (condition : Boundary)
  /-- A text for each of two patterns, one after the other. -/
  | seq (first second : Pattern)
  /-- A text for either of two patterns. -/
  | either (first second : Pattern)
  /-- As many texts as allowed, one after the other, each for the same pattern. -/
  | repeated (p : Pattern) (least : Nat) (most : Option Nat)
  deriving DecidableEq, Repr

/-- A mark for each place of a text. -/
abbrev Marks := List Bool

namespace Marks

/-- The places marked in either of two rows. -/
def or (a b : Marks) : Marks :=
  List.zipWith (· || ·) a b

/-- What is marked after a number of moves. -/
def times (move : Marks → Marks) : Nat → Marks → Marks
  | 0, marks => marks
  | n + 1, marks =>
    let moved := move marks
    if moved == marks then marks else times move n moved

/-- What is marked after at most a number of moves. -/
def upTo (move : Marks → Marks) : Nat → Marks → Marks
  | 0, marks => marks
  | n + 1, marks =>
    let wider := marks.or (move marks)
    if wider == marks then marks else upTo move n wider

end Marks

namespace Pattern

/-- The characters before and after each place of a text. -/
def places (text : List Char) : List (Option Char × Option Char) :=
  List.zip (none :: text.map some) (text.map some ++ [none])

/-- The places where a pattern may end if it begins at a marked one. -/
def reach (text : List Char) : Pattern → Marks → Marks
  | .empty, marks => marks
  | .one set, marks => false :: List.zipWith (fun mark c => mark && set.contains c) marks text
  | .place condition, marks =>
    List.zipWith (fun mark (before, after) => mark && condition.holds before after) marks
      (places text)
  | .seq first second, marks => reach text second (reach text first marks)
  | .either first second, marks => (reach text first marks).or (reach text second marks)
  | .repeated p least most, marks =>
    let moved := Marks.times (reach text p) least marks
    match most with
    | none => Marks.upTo (reach text p) (text.length + 1) moved
    | some most => Marks.upTo (reach text p) (min (most - least) (text.length + 1)) moved

/-- Whether a part of a text is as a pattern describes it. -/
def occursIn (p : Pattern) (text : List Char) : Bool :=
  (p.reach text (List.replicate (text.length + 1) true)).contains true

end Pattern

end Highlight1C
