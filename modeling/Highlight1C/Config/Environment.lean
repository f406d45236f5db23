/-!
# Environment variables

The variables that are set when the program is started, each with its value.
-/

namespace Highlight1C

/-- The environment variables that are set. -/
abbrev Environment := List (String × String)

namespace Environment

/-- The value of a variable. -/
def value? (env : Environment) (name : String) : Option String :=
  env.lookup name

/-- The truth value of a variable, if it is spelled out. -/
def flag (env : Environment) (name : String) (default : Bool) : Bool :=
  match env.value? name with
  | some "true" => true
  | some "false" => false
  | _ => default

/-- Whether a variable is set to anything but the empty text. -/
def isFilled (env : Environment) (name : String) : Bool :=
  (env.value? name).any (· != "")

end Environment

end Highlight1C
