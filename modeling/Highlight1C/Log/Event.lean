import Highlight1C.Config.Limits
import Highlight1C.Json
import Highlight1C.Log.Code
import Highlight1C.Log.Level
import Highlight1C.Position

/-!
# Log events

An event is a message with a level and a code, perhaps a place in a source, and a context of named
values. It can be written as a line, as a detailed note and as a JSON object.
-/

namespace Highlight1C.Log

/-- Named values in the order of their names, each name once. -/
abbrev Context := List (String × String)

/-- Sets a value; a value that was there under the same name is replaced. -/
def Context.set (key value : String) : Context → Context
  | [] => [(key, value)]
  | (k, v) :: rest =>
    if key = k then (key, value) :: rest
    else if key < k then (key, value) :: (k, v) :: rest
    else (k, v) :: Context.set key value rest

/-- What is set is found again, and all else stays. -/
theorem Context.lookup_set (key value name : String) (c : Context) :
    (c.set key value).lookup name = if name = key then some value else c.lookup name := by
  induction c with
  | nil =>
    by_cases h : name = key
    · simp [set, h]
    · simp [set, List.lookup_cons, beq_false_of_ne h, h]
  | cons pair rest ih =>
    obtain ⟨k, v⟩ := pair
    rw [set]
    split
    · next hk =>
      subst hk
      by_cases h : name = key
      · simp [h]
      · simp [List.lookup_cons, beq_false_of_ne h, h]
    · next hk =>
      split
      · by_cases h : name = key
        · simp [h]
        · simp [List.lookup_cons, beq_false_of_ne h, h]
      · rw [List.lookup_cons, ih, List.lookup_cons]
        by_cases h : name = key
        · simp [h, beq_false_of_ne hk]
        · simp [h]

/-- Something that happened. -/
structure Event where
  level : Level
  code : Code
  message : String
  span : Option Span := none
  context : Context := []
  deriving DecidableEq, Repr

namespace Event

/-- A message of at most the given number of characters; a longer one is cut there and gets three
dots. -/
def truncate (limit : Nat) (message : String) : String :=
  if message.length ≤ limit then message
  else String.ofList (message.toList.take limit) ++ "..."

/-- An event with a message that is cut if need be. -/
def make (level : Level) (code : Code) (message : String) : Event where
  level := level
  code := code
  message := truncate Limits.current.maxLogMessageLength message

/-- An error. -/
def error (code : Code) (message : String) : Event := make .error code message

/-- A warning without a code of its own. -/
def warning (message : String) : Event := make .warning .plainWarning message

/-- A warning with a code. -/
def codedWarning (code : Code) (message : String) : Event := make .warning code message

/-- A piece of information without a code of its own. -/
def info (message : String) : Event := make .info .plainInfo message

/-- News that something succeeded. -/
def success (code : Code) (message : String) : Event := make .info code message

/-- A debugging note. -/
def debug (message : String) : Event := make .debug .plainDebug message

/-- The event with a value set in its context. -/
def withValue (e : Event) (key value : String) : Event :=
  { e with context := e.context.set key value }

/-- The event with values set in its context one after the other. -/
def withValues (e : Event) (values : List (String × String)) : Event :=
  values.foldl (fun e (key, value) => e.withValue key value) e

/-- Whether an event is an error. -/
def isError (e : Event) : Bool := e.level == .error

/-- Whether an event is a warning. -/
def isWarning (e : Event) : Bool := e.level == .warning

/-- Whether an event is a piece of information. -/
def isInfo (e : Event) : Bool := e.level == .info

/-- Where an event happened, as the end of a line. -/
def place (e : Event) : String :=
  match e.span with
  | some span => s!" at {span.start.label}"
  | none => ""

/-- An event as a line. -/
def line (e : Event) : String :=
  s!"[{e.level.mark}] {e.code.text} - {e.message}{e.place}"

/-- An event as a line, with its context in braces if it has one. -/
def lineWithContext (e : Event) : String :=
  if e.context.isEmpty then e.line
  else
    let values := " ".intercalate (e.context.map fun (k, v) => s!"{k}={v}")
    e.line ++ " \x7b" ++ values ++ "\x7d"

/-- The word for a truth value. -/
def truth (b : Bool) : String := if b then "true" else "false"

/-- An event with what is known about its code, and its context. -/
def details (e : Event) : String :=
  let about := s!"{e.line}\n  Category: {e.code.category}\n  Severity: {e.code.severity.name}"
  let about :=
    if e.isError then
      s!"{about}\n  Recoverable: {truth e.code.isRecoverable}\n  Requires halt: {truth e.code.requiresHalt}"
    else about
  let about :=
    if e.code.description = "Unknown error" then about
    else s!"{about}\n  Description: {e.code.description}"
  if e.context.isEmpty then about
  else e.context.foldl (fun out (k, v) => s!"{out}\n    {k}: {v}") s!"{about}\n  Context:"

/-- An event as a JSON object with its fields in the order of their names. -/
def json (e : Event) (timestamp : String) : Json :=
  let context := if e.context.isEmpty then [] else
    [("context", Json.object (e.context.map fun (k, v) => (k, .string v)))]
  let errorInfo := if !e.isError then [] else
    [("error_metadata", Json.object [
      ("description", .string e.code.description),
      ("recommended_action", .string e.code.action),
      ("recoverable", .bool e.code.isRecoverable),
      ("requires_halt", .bool e.code.requiresHalt)])]
  let span := match e.span with
    | none => []
    | some s => [("span", Json.object [
      ("end_column", .nat s.stop.column),
      ("end_line", .nat s.stop.line),
      ("start_column", .nat s.start.column),
      ("start_line", .nat s.start.line)])]
  .object ([("category", .string e.code.category), ("code", .string e.code.text)] ++ context ++
    errorInfo ++ [("level", .string e.level.mark), ("message", .string e.message),
      ("severity", .string e.code.severity.name)] ++ span ++ [("timestamp", .string timestamp)])

end Event

end Highlight1C.Log
