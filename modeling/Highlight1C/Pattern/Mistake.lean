import Highlight1C.Text.Parts

/-!
# Mistakes in written patterns

A mistake is a flaw at a stretch of the written pattern. Its report quotes the pattern and puts
carets under the stretch; a pattern of several lines is quoted with their numbers, and a stretch
that covers more than one of them is described instead.
-/

namespace Highlight1C.Pattern

/-- A stretch of a written pattern, from one place between its characters to another. -/
structure Stretch where
  start : Nat
  stop : Nat
  deriving DecidableEq, Repr

/-- What is wrong with a written pattern. -/
inductive Flaw where
  | setEscape
  | setRangeOrder
  | setRangeEnd
  | setUnclosed
  | numberEmpty
  | numberTooLarge
  | codeEmpty
  | codeInvalid
  | codeDigit
  | escapeIncomplete
  | escapeUnknown
  | flagNegationDangling
  | flagTwice
  | flagNegationTwice
  | flagMissing
  | flagUnknown
  | nameTwice
  | nameEmpty
  | nameChar
  | nameUnclosed
  | groupUnclosed
  | groupUnopened
  | countOrder
  | countEmpty
  | countUnclosed
  | nothingToRepeat
  | edgeUnclosed
  | edgeUnknown
  | edgeIncomplete
  | propertyName
  | backReference
  | lookAround
  | charNotAllowed
  | notText
  | propertyUnknown
  | classUnavailable
  | caseUnavailable
  deriving DecidableEq, Repr

/-- What is said about a flaw. -/
def Flaw.message : Flaw → String
  | .setEscape => "invalid escape sequence found in character class"
  | .setRangeOrder => "invalid character class range, the start must be <= the end"
  | .setRangeEnd => "invalid range boundary, must be a literal"
  | .setUnclosed => "unclosed character class"
  | .numberEmpty => "decimal literal empty"
  | .numberTooLarge => "decimal literal invalid"
  | .codeEmpty => "hexadecimal literal empty"
  | .codeInvalid => "hexadecimal literal is not a Unicode scalar value"
  | .codeDigit => "invalid hexadecimal digit"
  | .escapeIncomplete => "incomplete escape sequence, reached end of pattern prematurely"
  | .escapeUnknown => "unrecognized escape sequence"
  | .flagNegationDangling => "dangling flag negation operator"
  | .flagTwice => "duplicate flag"
  | .flagNegationTwice => "flag negation operator repeated"
  | .flagMissing => "expected flag but got end of regex"
  | .flagUnknown => "unrecognized flag"
  | .nameTwice => "duplicate capture group name"
  | .nameEmpty => "empty capture group name"
  | .nameChar => "invalid capture group character"
  | .nameUnclosed => "unclosed capture group name"
  | .groupUnclosed => "unclosed group"
  | .groupUnopened => "unopened group"
  | .countOrder => "invalid repetition count range, the start must be <= the end"
  | .countEmpty => "repetition quantifier expects a valid decimal"
  | .countUnclosed => "unclosed counted repetition"
  | .nothingToRepeat => "repetition operator missing expression"
  | .edgeUnclosed =>
    "special word boundary assertion is either unclosed or contains an invalid character"
  | .edgeUnknown =>
    "unrecognized special word boundary assertion, valid choices are: start, end, start-half or end-half"
  | .edgeIncomplete =>
    "found either the beginning of a special word boundary or a bounded repetition on a \\b with an " ++
    "opening brace, but no closing brace"
  | .propertyName => "invalid Unicode character class"
  | .backReference => "backreferences are not supported"
  | .lookAround => "look-around, including look-ahead and look-behind, is not supported"
  | .charNotAllowed => "Unicode not allowed here"
  | .notText => "pattern can match invalid UTF-8"
  | .propertyUnknown => "Unicode property not found"
  | .classUnavailable =>
    "Unicode-aware Perl class not found (make sure the unicode-perl feature is enabled)"
  | .caseUnavailable =>
    "Unicode-aware case insensitivity matching is not available (make sure the unicode-case feature " ++
    "is enabled)"

/-- A flaw and where it is. -/
structure Mistake where
  flaw : Flaw
  stretch : Stretch
  /-- The earlier stretch with which this one is at odds, if there is one. -/
  earlier : Option Stretch := none
  deriving DecidableEq, Repr

namespace Mistake

/-- A line and a column, counted from one. -/
abbrev Place := Nat × Nat

/-- The line and the column at which so many characters have passed. -/
def placeAt (n : Nat) (pattern : List Char) : Place :=
  (pattern.take n).foldl (fun (line, column) c =>
    if c = '\n' then (line + 1, 1) else (line, column + 1)) (1, 1)

/-- The stretches of a mistake in the order in which they stand. -/
def stretches (m : Mistake) : List Stretch :=
  match m.earlier with
  | none => [m.stretch]
  | some e => if e.start ≤ m.stretch.start then [e, m.stretch] else [m.stretch, e]

/-- Carets in the columns from the first to before the last, and at least one. -/
def carets (row : String) (first last : Nat) : String :=
  (row.pushn ' ' (first - 1 - row.length)).pushn '^' (max 1 (last - first))

/-- The row of carets under a line, if there are any. -/
def underline? (spans : List (Place × Place)) (line : Nat) : Option String :=
  match spans.filter fun (a, b) => a.1 == line && b.1 == line with
  | [] => none
  | here => some (here.foldl (fun row (a, b) => carets row a.2 b.2) "")

/-- The lines of a pattern with their numbers from `line` on, each with the carets under it; without
a width for the numbers there are none. -/
def quote (spans : List (Place × Place)) (width line : Nat) : List String → String
  | [] => ""
  | text :: rest =>
    let number := toString line
    let head := if width = 0 then "    " else "".pushn ' ' (width - number.length) ++ number ++ ": "
    let under := match underline? spans line with
      | some row => "".pushn ' ' (if width = 0 then 4 else width + 2) ++ row ++ "\n"
      | none => ""
    head ++ text ++ "\n" ++ under ++ quote spans width (line + 1) rest

/-- What is said about a mistake in a pattern. -/
def report (m : Mistake) (pattern : List Char) : String :=
  let spans := m.stretches.map fun s => (placeAt s.start pattern, placeAt s.stop pattern)
  let lines := (Text.split '\n' pattern).map String.ofList
  let ending := s!"error: {m.flaw.message}"
  if lines.length ≤ 1 then s!"regex parse error:\n{quote spans 0 1 lines}{ending}"
  else
    let shown := if lines.getLast? = some "" then lines.dropLast else lines
    let divider := "".pushn '~' 79
    let notes := spans.filterMap fun (a, b) =>
      if a.1 = b.1 then none
      else some s!"on line {a.1} (column {a.2}) through line {b.1} (column {b.2 - 1})"
    let described := if notes.isEmpty then "" else "\n".intercalate notes ++ "\n"
    let quoted := quote spans (toString lines.length).length 1 shown
    s!"regex parse error:\n{divider}\n{quoted}{divider}\n{described}{ending}"

end Mistake

end Highlight1C.Pattern
