import Highlight1C.Fault
import Highlight1C.Text.Bytes

/-!
# Positions and spans

A position in a source is a byte offset from its start together with the line and the column that a
reader sees, both counted from one. A span is the stretch between two positions. Offsets are below
2⁶⁴, lines and columns below 2³²; moving past these widths is a fault.

* `advance`: the position after one more character;
* `advanceText`: the position after a whole text;
* `Span.between`: the span of two positions that are in order.
-/

namespace Highlight1C

/-- A place in a source. -/
structure Position where
  /-- Bytes from the start of the source. -/
  offset : Nat
  /-- The line, counted from one. -/
  line : Nat
  /-- The column in characters, counted from one. -/
  column : Nat
  deriving DecidableEq, Repr

namespace Position

/-- Where a source begins. -/
def start : Position := ⟨0, 1, 1⟩

/-- Offsets stay below this bound, 2⁶⁴. -/
def offsetBound : Nat := 0x10000000000000000

/-- Lines and columns stay below this bound, 2³². -/
def countBound : Nat := 0x100000000

/-- The position after one more character: a line feed opens the next line, every other character
takes one column. -/
def advance (p : Position) (c : Char) : Except Fault Position :=
  let offset := p.offset + c.utf8Size
  if c = '\n' then
    if offset < offsetBound ∧ p.line + 1 < countBound then .ok ⟨offset, p.line + 1, 1⟩
    else .error .overflow
  else
    if offset < offsetBound ∧ p.column + 1 < countBound then .ok ⟨offset, p.line, p.column + 1⟩
    else .error .overflow

/-- The position after a text. -/
def advanceText (p : Position) (text : List Char) : Except Fault Position :=
  text.foldlM advance p

@[simp] theorem advanceText_nil (p : Position) : p.advanceText [] = .ok p := rfl

/-- A text is passed character by character. -/
theorem advanceText_cons (p : Position) (c : Char) (cs : List Char) :
    p.advanceText (c :: cs) = (p.advance c).bind (·.advanceText cs) := by
  simp only [advanceText, List.foldlM_cons]
  rfl

/-- Positions are ordered by offset, then line, then column. -/
def order (p q : Position) : Ordering :=
  (compare p.offset q.offset).then ((compare p.line q.line).then (compare p.column q.column))

/-- A position as line and column, `line:column`. -/
def label (p : Position) : String :=
  s!"{p.line}:{p.column}"

end Position

/-- The stretch of a source from one position to another. -/
structure Span where
  /-- The first position of the span. -/
  start : Position
  /-- The position after the span. -/
  stop : Position
  deriving DecidableEq, Repr

namespace Span

/-- The span of two positions, of which the first must not lie after the second. -/
def between (start stop : Position) : Except Fault Span :=
  if start.offset ≤ stop.offset then .ok ⟨start, stop⟩ else .error .reversedSpan

/-- The span that reaches over two spans. Of equal ends, those of the second span are kept. -/
def merge (a b : Span) : Span where
  start := if a.start.offset < b.start.offset then a.start else b.start
  stop := if a.stop.offset > b.stop.offset then a.stop else b.stop

/-- The number of bytes in a span; a span that runs backwards has none. -/
def length (s : Span) : Except Fault Nat :=
  if s.start.offset ≤ s.stop.offset then .ok (s.stop.offset - s.start.offset)
  else .error .overflow

/-- Whether a span ends where it starts. -/
def isEmpty (s : Span) : Bool :=
  s.start.offset == s.stop.offset

/-- The part of a text that a span covers. -/
def slice (s : Span) (text : List Char) : Except Fault (List Char) :=
  match Text.slice? s.start.offset s.stop.offset text with
  | some part => .ok part
  | none => .error .badCut

/-- A span within one line names the line once, `line:column-column`; any other names both
positions. -/
def label (s : Span) : String :=
  if s.start.line = s.stop.line then s!"{s.start.line}:{s.start.column}-{s.stop.column}"
  else s!"{s.start.label}-{s.stop.label}"

/-- The span of a source in which nothing was read: no line, no column. -/
def blank : Span := ⟨⟨0, 0, 0⟩, ⟨0, 0, 0⟩⟩

end Span

end Highlight1C
