import Highlight1C.Pattern.Basic
import Highlight1C.Pattern.Mistake

/-!
# Written patterns

The tree of a written pattern keeps what is needed to read it as a pattern: flags that change the
meaning of what follows, classes of characters by their names, and the stretch at which each part
stands, for reports about mistakes.
-/

namespace Highlight1C.Pattern

/-- A choice about how a pattern is read. -/
inductive Flag where
  /-- Letters stand for both cases. -/
  | anyCase
  /-- The signs for the ends of a text stand for the ends of its lines too. -/
  | lines
  /-- The sign for any character stands for line feeds too. -/
  | dotAll
  /-- Repetition is short instead of long, and the other way round. -/
  | swapGreed
  /-- Characters are those of Unicode; otherwise they are bytes. -/
  | wide
  /-- Carriage returns end lines too. -/
  | returns
  /-- Blanks and comments in the pattern do not count. -/
  | verbose
  deriving DecidableEq, Repr

/-- Flags that are set and flags that are cleared. -/
abbrev FlagChange := List (Flag × Bool)

/-- The new value of a flag, if it is changed. -/
def FlagChange.value? (change : FlagChange) (flag : Flag) : Option Bool :=
  change.lookup flag

/-- A character in a written pattern. -/
structure Literal where
  stretch : Stretch
  char : Char
  /-- Whether it is written as a code of two hexadecimal digits, which may stand for a byte. -/
  isByte : Bool := false
  deriving DecidableEq, Repr

/-- The classes of characters that have a letter. -/
inductive LetterClass where
  | digit
  | space
  | word
  deriving DecidableEq, Repr

/-- The members of a class below U+0080. -/
def LetterClass.narrow : LetterClass → CharSet
  | .digit => .range '0' '9'
  | .space => .ofRanges [('\t', '\r'), (' ', ' ')]
  | .word => .ofRanges [('0', '9'), ('A', 'Z'), ('_', '_'), ('a', 'z')]

/-- The classes of characters that have a name, with their members, all below U+0080. -/
def namedClasses : List (String × List (Char × Char)) :=
  [("alnum", [('0', '9'), ('A', 'Z'), ('a', 'z')]),
   ("alpha", [('A', 'Z'), ('a', 'z')]),
   ("ascii", [('\x00', '\x7f')]),
   ("blank", [('\t', '\t'), (' ', ' ')]),
   ("cntrl", [('\x00', '\x1f'), ('\x7f', '\x7f')]),
   ("digit", [('0', '9')]),
   ("graph", [('!', '~')]),
   ("lower", [('a', 'z')]),
   ("print", [(' ', '~')]),
   ("punct", [('!', '/'), (':', '@'), ('[', '\x60'), ('\x7b', '~')]),
   ("space", [('\t', '\r'), (' ', ' ')]),
   ("upper", [('A', 'Z')]),
   ("word", [('0', '9'), ('A', 'Z'), ('_', '_'), ('a', 'z')]),
   ("xdigit", [('0', '9'), ('A', 'F'), ('a', 'f')])]

/-- How two sets are combined. -/
inductive SetOperation where
  | union
  | inter
  | diff
  | symmDiff
  deriving DecidableEq, Repr

/-- A written set of characters. -/
inductive SetTree where
  | nothing
  | char (l : Literal)
  | range (first last : Literal)
  | named (stretch : Stretch) (negated : Bool) (members : List (Char × Char))
  | letter (stretch : Stretch) (negated : Bool) (kind : LetterClass)
  | property (stretch : Stretch)
  | bracket (stretch : Stretch) (negated : Bool) (body : SetTree)
  | combine (operation : SetOperation) (a b : SetTree)
  deriving DecidableEq, Repr

/-- A written condition on the place between two characters. -/
inductive Mark where
  | lineStart
  | lineStop
  | textStart
  | textStop
  | edge (edge : WordEdge)
  deriving DecidableEq, Repr

/-- A written pattern. -/
inductive Tree where
  | empty
  | flags (change : FlagChange)
  | char (l : Literal)
  | dot (stretch : Stretch)
  | mark (m : Mark)
  | set (s : SetTree)
  | repeated (t : Tree) (least : Nat) (most : Option Nat)
  | group (change : FlagChange) (t : Tree)
  | seq (a b : Tree)
  | either (a b : Tree)
  deriving DecidableEq, Repr

/-- Whether a tree is something that can be repeated: all but flags. -/
def Tree.isRepeatable : Tree → Bool
  | .empty | .flags _ => false
  | _ => true

/-- Trees one after the other, from the last to the first. -/
def Tree.ofReversed : List Tree → Tree
  | [] => .empty
  | t :: before => before.foldl (fun after t => .seq t after) t

/-- A choice of trees, from the last to the first. -/
def Tree.choiceOfReversed : List Tree → Tree
  | [] => .empty
  | t :: before => before.foldl (fun after t => .either t after) t

end Highlight1C.Pattern
