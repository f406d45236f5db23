import Highlight1C.Log.Level
import Highlight1C.Text.Paint
import Highlight1C.Text.Plain

/-!
# Records

A record is what a log backend is handed, under the name of the library. It is laid out as a line
with its level and that name in front. A line may be painted; one that is not is also freed of all
orders for a terminal that its text may hold.
-/

namespace Highlight1C.Log

/-- What a log backend is handed. -/
structure Record where
  level : Level
  text : String
  deriving DecidableEq, Repr

/-- The name under which records are handed to a log backend. -/
def recordTarget : String := "rus1c_lexer"

/-- The environment variable in which the look of lines can be chosen. -/
def styleVariable : String := "RUST_LOG_STYLE"

/-- The look of lines: as it is chosen, and if it is not, like that of all texts. -/
def styleOfEnvironment (env : Environment) : Text.Style :=
  match env.value? styleVariable with
  | some "always" => .painted
  | some "never" => .plain
  | _ => .ofEnvironment env

/-- How a level is shown: errors bold and red, warnings yellow, information green and notes blue. -/
def Level.paint : Level → List String
  | .error => ["1", "31"]
  | .warning => ["33"]
  | .info => ["32"]
  | .debug => ["34"]

/-- How brackets are shown: dark. -/
def bracketPaint : List String := ["90"]

/-- A text with each line after the first set in by four blanks. -/
def indentLines (text : String) : String :=
  text.foldl (fun out c => if c = '\n' then (out.push c).pushn ' ' 4 else out.push c) ""

/-- The mark of a level, set out to five columns. -/
def Level.column (level : Level) : String :=
  level.mark.pushn ' ' (5 - level.mark.length)

namespace Record

/-- The line of a record: level, target and text. -/
def layout (r : Record) (style : Text.Style) : String :=
  let start := style.paint bracketPaint "[" ++ style.paint r.level.paint r.level.column
  let stop := style.paint bracketPaint "]"
  s!"{start} {recordTarget}{stop} {indentLines r.text}\n"

/-- What is written of the line of a record. -/
def line (r : Record) : Text.Style → String
  | .plain => String.ofList (Text.plain (r.layout .plain).toList)
  | .painted => r.layout .painted

end Record

end Highlight1C.Log
