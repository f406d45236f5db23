import Highlight1C.Config.Environment

/-!
# Painted texts

A text may be painted for a terminal: an order to show it in some way stands before it, and one that
ends this after it. Whether texts are painted that do not go to a terminal is up to the environment.
-/

namespace Highlight1C.Text

/-- How texts look. -/
inductive Style where
  | plain
  | painted
  deriving DecidableEq, Repr

namespace Style

/-- The environment variables on which the look of texts depends. -/
def variableNames : List String := ["NO_COLOR", "CLICOLOR_FORCE"]

/-- The look of texts that do not go to a terminal: painted only if that is enforced and not
forbidden. -/
def ofEnvironment (env : Environment) : Style :=
  if env.isFilled "CLICOLOR_FORCE" && !env.isFilled "NO_COLOR" then .painted else .plain

/-- A text in the look that the codes stand for. -/
def paint (style : Style) (codes : List String) (text : String) : String :=
  match style with
  | .plain => text
  | .painted => String.join (codes.map fun code => "\x1b[" ++ code ++ "m") ++ text ++ "\x1b[0m"

end Style

end Highlight1C.Text
