import Highlight1C.Json
import Highlight1C.Token.Metrics

/-!
# Streams and figures as JSON
-/

namespace Highlight1C

/-- A position as a JSON object. -/
def Position.json (p : Position) : Json :=
  .object [("offset", .nat p.offset), ("line", .nat p.line), ("column", .nat p.column)]

/-- A span as a JSON object. -/
def Span.json (s : Span) : Json :=
  .object [("start", s.start.json), ("end", s.stop.json)]

/-- A piece as a JSON object, which says first what it is. -/
def Piece.json : Piece Token → Json
  | .token t => .object [("event", .string "text"), ("kind", .string t.kind.name),
      ("text", .string (String.ofList t.text)), ("span", t.span.json)]
  | .beginGroup => .object [("event", .string "begin_group"), ("group", .string groupName)]
  | .endGroup => .object [("event", .string "end_group"), ("group", .string groupName)]

/-- A stream as a JSON object. -/
def TokenStream.json (s : TokenStream) : Json :=
  .object [("events", .array (s.pieces.map Piece.json))]

/-- Figures as a JSON object. -/
def Metrics.json (m : Metrics) : Json :=
  .object [
    ("total_tokens", .nat m.total),
    ("significant_tokens", .nat m.significant),
    ("by_kind", .object (m.byKind.map fun (k, n) => (k.name, .nat n))),
    ("string_groups", .nat m.strings),
    ("error_tokens", .nat m.errors),
    ("comment_count", .nat m.comments),
    ("max_comment_length", .nat m.longestComment),
    ("max_string_length", .nat m.longestString),
    ("last_line", .nat m.lastLine)]

end Highlight1C
