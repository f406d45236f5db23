import Highlight1C.Token.Stream

/-!
# Well-formed streams

A stream is well formed over a source when three things hold: its texts are not empty and make up the
source, its group markers alternate and every part of a string lies between two of them, and each
span starts where the one before it ended and is as long as its text. `TokenStream.validate` looks for
the first violation, in that order.
-/

namespace Highlight1C

/-- What can be wrong with a stream. -/
inductive Violation where
  /-- A token without text, at a byte offset. -/
  | emptyToken (kind : TokenKind) (offset : Nat)
  /-- A token that is not what the source has at this offset. -/
  | mismatch (lexeme : Lexeme) (offset : Nat)
  /-- The texts end before the source does. -/
  | uncovered (covered total : Nat)
  /-- A group opened within a group. -/
  | reopened (index : Nat)
  /-- A group closed that was not open. -/
  | unopened (index : Nat)
  /-- A part of a string outside any group. -/
  | strayPart (lexeme : Lexeme) (index : Nat)
  /-- A group that is open at the end. -/
  | unclosed
  /-- A span that does not start where the last one ended. -/
  | displaced (lexeme : Lexeme) (start expected : Nat)
  /-- A span that is not as long as its text. -/
  | mismeasured (lexeme : Lexeme) (covers length : Nat)
  deriving DecidableEq, Repr

/-- What is said of a violation. -/
def Violation.message : Violation → String
  | .emptyToken kind offset => s!"Empty {kind.name} token at offset {offset}"
  | .mismatch lexeme offset => s!"Token {lexeme.label} does not match source at offset {offset}"
  | .uncovered covered total => s!"Tokens cover {covered} of {total} source bytes"
  | .reopened index =>
    s!"Group {groupName} opened at event {index} inside open {groupName} group"
  | .unopened index => s!"Group {groupName} closed at event {index} without being opened"
  | .strayPart lexeme index => s!"String part {lexeme.label} outside a group at event {index}"
  | .unclosed => s!"Group {groupName} never closed"
  | .displaced lexeme start expected =>
    s!"Span order violation: token {lexeme.label} starts at {start}, expected {expected}"
  | .mismeasured lexeme covers length =>
    s!"Span of token {lexeme.label} covers {covers} bytes, text has {length}"

namespace TokenStream

/-- The first token that is empty or is not the next text of the source, of which `offset` bytes lie
behind; at the end, whether anything of the source is left. -/
def lossFrom (offset : Nat) : List Token → List Char → Option Violation
  | [], [] => none
  | [], source@(_ :: _) => some (.uncovered offset (offset + Text.byteLength source))
  | t :: ts, source =>
    if t.text.isEmpty then some (.emptyToken t.kind offset)
    else if t.text.isPrefixOf source then
      lossFrom (offset + Text.byteLength t.text) ts (source.drop t.text.length)
    else some (.mismatch t.toLexeme offset)

/-- The first way in which the texts fail to make up the source. -/
def loss? (s : TokenStream) (source : List Char) : Option Violation :=
  lossFrom 0 s.tokens source

/-- The first piece, counted from `index`, that breaks the nesting of groups, where `inside` says
whether a group is open. -/
def nestingFrom (index : Nat) (inside : Bool) : List (Piece Token) → Option Violation
  | [] => if inside then some .unclosed else none
  | .beginGroup :: ps => if inside then some (.reopened index) else nestingFrom (index + 1) true ps
  | .endGroup :: ps => if inside then nestingFrom (index + 1) false ps else some (.unopened index)
  | .token t :: ps =>
    if t.kind.isStringPart && !inside then some (.strayPart t.toLexeme index)
    else nestingFrom (index + 1) inside ps

/-- The first way in which the groups are not well nested. -/
def nesting? (s : TokenStream) : Option Violation :=
  nestingFrom 0 false s.pieces

/-- The first token whose span does not follow on from byte `expected` or does not fit its text. -/
def placingFrom (expected : Nat) : List Token → Except Fault (Option Violation)
  | [] => .ok none
  | t :: ts => do
    if t.span.start.offset ≠ expected then
      return some (.displaced t.toLexeme t.span.start.offset expected)
    let covers ← t.span.length
    if covers ≠ Text.byteLength t.text then
      return some (.mismeasured t.toLexeme covers (Text.byteLength t.text))
    placingFrom t.span.stop.offset ts

/-- The first way in which the spans do not follow one another. A span that runs backwards cannot be
measured. -/
def placing? (s : TokenStream) : Except Fault (Option Violation) :=
  placingFrom 0 s.tokens

/-- The first violation of a stream over a source: of its texts, then of its groups, then of its
spans. -/
def validate (s : TokenStream) (source : List Char) : Except Fault (Option Violation) :=
  match s.loss? source with
  | some v => .ok (some v)
  | none =>
    match s.nesting? with
    | some v => .ok (some v)
    | none => s.placing?

end TokenStream

end Highlight1C
