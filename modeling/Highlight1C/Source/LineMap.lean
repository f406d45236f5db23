import Highlight1C.Position

/-!
# The lines of a source

A line map divides a source at its line feeds, so a source with `n` line feeds has `n + 1` lines,
and the empty source has one empty line. `report` points at a span of a line with carets.
-/

namespace Highlight1C

/-- A source divided into lines. -/
structure LineMap where
  /-- The lines without their line feeds; carriage returns before a line feed are still there. -/
  lines : List (List Char)
  deriving DecidableEq, Repr

namespace LineMap

/-- The lines of a text, given those already complete and the characters of the open one, both last
first. -/
def divideFrom (done : List (List Char)) (pending : List Char) : List Char → List (List Char)
  | [] => (pending.reverse :: done).reverse
  | c :: cs =>
    if c = '\n' then divideFrom (pending.reverse :: done) [] cs else divideFrom done (c :: pending) cs

/-- The line map of a source. -/
def ofSource (source : List Char) : LineMap :=
  ⟨divideFrom [] [] source⟩

/-- How many lines a source has. -/
def count (m : LineMap) : Nat :=
  m.lines.length

/-- A text without the carriage returns at its end. -/
def trimReturns (line : List Char) : List Char :=
  (line.reverse.dropWhile (· == '\r')).reverse

/-- Line `n`, counted from one, without what ends it. -/
def line? (m : LineMap) (n : Nat) : Option (List Char) :=
  match n with
  | 0 => none
  | n + 1 => m.lines[n]?.map trimReturns

/-- How many carets mark a span: its columns if it stays within a line, one otherwise, and at least
one. A span that runs backwards within a line cannot be marked. -/
def caretCount (span : Span) : Except Fault Nat :=
  if span.start.line = span.stop.line then
    if span.start.column ≤ span.stop.column then
      .ok (max (span.stop.column - span.start.column) 1)
    else .error .overflow
  else .ok 1

/-- A warning with the line it is about, and carets under the span. Where the source has no such
line, the warning and its place stand alone. -/
def report (m : LineMap) (span : Span) (message : String) : Except Fault String := do
  let head := s!"warning: {message}\n  --> {span.start.label}\n"
  match m.line? span.start.line with
  | none => return head
  | some line =>
    let number := toString span.start.line
    let gutter := "".pushn ' ' number.length
    let carets ← caretCount span
    let underline := ("".pushn ' ' (span.start.column - 1)).pushn '^' carets
    return s!"{head}{gutter} |\n{number} | {String.ofList line}\n{gutter} | {underline}\n"

end LineMap

end Highlight1C
