import Highlight1C.Text.LowerCase

/-!
# Levels of log events

From errors down to debugging notes. A minimum level lets through the events of that level and of
those before it.
-/

namespace Highlight1C.Log

/-- How much an event matters. -/
inductive Level where
  | error
  | warning
  | info
  | debug
  deriving DecidableEq, Repr

namespace Level

/-- The place of a level, from the gravest. -/
def rank : Level → Nat
  | .error => 0
  | .warning => 1
  | .info => 2
  | .debug => 3

/-- Whether a minimum level lets an event through. -/
def admits (minimum level : Level) : Bool :=
  level.rank ≤ minimum.rank

/-- The mark of a level in a log line. -/
def mark : Level → String
  | .error => "ERROR"
  | .warning => "WARN"
  | .info => "INFO"
  | .debug => "DEBUG"

/-- The word for a level in a configuration. -/
def word : Level → String
  | .error => "error"
  | .warning => "warning"
  | .info => "info"
  | .debug => "debug"

/-- The title of a level in a summary. -/
def title : Level → String
  | .error => "Error"
  | .warning => "Warning"
  | .info => "Info"
  | .debug => "Debug"

/-- Every level, from the gravest. -/
def all : List Level := [.error, .warning, .info, .debug]

/-- The level that a configuration names; the word must match letter for letter. -/
def ofWord? (word : String) : Option Level :=
  all.find? (·.word == word)

/-- The level that a user names: its word in any case, `warn`, or its place. -/
def parse? (text : String) : Option Level :=
  let text := String.ofList (Text.lower text.toList)
  if text = "error" || text = "0" then some .error
  else if text = "warning" || text = "warn" || text = "1" then some .warning
  else if text = "info" || text = "2" then some .info
  else if text = "debug" || text = "3" then some .debug
  else none

@[simp] theorem admits_debug (l : Level) : Level.debug.admits l = true := by
  cases l <;> rfl

end Level

end Highlight1C.Log
