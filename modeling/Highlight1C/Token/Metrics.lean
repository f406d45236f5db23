import Highlight1C.Token.Stream

/-!
# Figures about a stream

Metrics are gathered piece by piece, so that a scan can keep them while it goes on; `Metrics.ofStream`
gathers them from a finished stream.
-/

namespace Highlight1C

/-- How often each kind occurs, in the order of kinds, with the kinds that occur only. -/
abbrev KindCounts := List (TokenKind × Nat)

namespace KindCounts

/-- One more of a kind. -/
def bump (k : TokenKind) : KindCounts → KindCounts
  | [] => [(k, 1)]
  | (j, n) :: rest =>
    if k = j then (j, n + 1) :: rest
    else if k.rank < j.rank then (k, 1) :: (j, n) :: rest
    else (j, n) :: bump k rest

/-- How often a kind occurs. -/
def count (k : TokenKind) (counts : KindCounts) : Nat :=
  (counts.lookup k).getD 0

end KindCounts

/-- Figures about a stream. -/
structure Metrics where
  /-- All tokens. -/
  total : Nat := 0
  /-- All tokens but layout and comments. -/
  significant : Nat := 0
  /-- Tokens by kind. -/
  byKind : KindCounts := []
  /-- Strings begun. -/
  strings : Nat := 0
  /-- Tokens that no rule recognised. -/
  errors : Nat := 0
  /-- Comments. -/
  comments : Nat := 0
  /-- Bytes of the longest comment. -/
  longestComment : Nat := 0
  /-- Bytes of the longest string that was closed. -/
  longestString : Nat := 0
  /-- The line on which the last token ended. -/
  lastLine : Nat := 0
  /-- Bytes of the string that is open, if one is. -/
  openString : Option Nat := none
  deriving DecidableEq, Repr

namespace Metrics

/-- The figures with one more token. -/
def addToken (m : Metrics) (t : Token) : Metrics :=
  let length := Text.byteLength t.text
  { m with
    total := m.total + 1
    significant := if t.kind.isSignificant then m.significant + 1 else m.significant
    byKind := KindCounts.bump t.kind m.byKind
    errors := if t.kind = .error then m.errors + 1 else m.errors
    comments := if t.kind = .comment then m.comments + 1 else m.comments
    longestComment :=
      if t.kind = .comment then max m.longestComment length else m.longestComment
    lastLine := t.span.stop.line
    openString := m.openString.map (· + length) }

/-- The figures with one more piece. -/
def add (m : Metrics) : Piece Token → Metrics
  | .token t => m.addToken t
  | .beginGroup => { m with strings := m.strings + 1, openString := some 0 }
  | .endGroup =>
    match m.openString with
    | some length => { m with longestString := max m.longestString length, openString := none }
    | none => m

/-- The figures about a finished stream. -/
def ofStream (s : TokenStream) : Metrics :=
  s.pieces.foldl add {}

/-- How often a kind occurs. -/
def count (m : Metrics) (k : TokenKind) : Nat :=
  KindCounts.count k m.byKind

/-- Whether any token was not recognised. -/
def hasErrors (m : Metrics) : Bool :=
  0 < m.errors

/-- A name set out to twenty columns. -/
def column (name : String) : String :=
  name.pushn ' ' (20 - name.length)

/-- The figures as lines for people: totals first, then a line for each kind. -/
def summary (m : Metrics) : String :=
  let head := s!"tokens: {m.total} ({m.significant} significant)\nstrings: {m.strings}\nerrors: {m.errors}\nlines: {m.lastLine}\n"
  m.byKind.foldl (fun out (k, n) => s!"{out}  {column k.name}{n}\n") head

end Metrics

end Highlight1C
