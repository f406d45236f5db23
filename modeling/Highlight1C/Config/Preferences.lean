import Highlight1C.Config.Environment
import Highlight1C.Log.Level

/-!
# Preferences

What a user may choose: what a scan measures and logs, and how the log is written. Where nothing is
chosen, an environment variable decides, and where that is not set, or holds something else than
`true` or `false`, a default. Preferences never change the tokens of a source.
-/

namespace Highlight1C

/-- What a scan measures and logs. -/
structure ScannerPreferences where
  /-- Whether figures are kept while scanning. -/
  collectMetrics : Bool := true
  /-- Whether characters that no rule recognises are logged one by one. -/
  logErrorTokens : Bool := true
  /-- Whether a string that the source leaves open is logged. -/
  logImplicitClose : Bool := false
  deriving DecidableEq, Repr

/-- The scanner preferences of an environment. -/
def ScannerPreferences.ofEnvironment (env : Environment) : ScannerPreferences where
  collectMetrics := env.flag "RUS1C_SCANNER_COLLECT_METRICS" true
  logErrorTokens := env.flag "RUS1C_SCANNER_LOG_ERROR_TOKENS" true
  logImplicitClose := env.flag "RUS1C_SCANNER_LOG_IMPLICIT_CLOSE" false

/-- How the log is written. -/
structure LoggingPreferences where
  /-- Whether events are written as JSON. -/
  structured : Bool := false
  /-- Whether events are written at all. -/
  console : Bool := true
  /-- From which level on events are written. -/
  minimum : Log.Level := .warning
  /-- Whether events name the file that is being worked on. -/
  fileContext : Bool := true
  deriving DecidableEq, Repr

/-- The logging preferences of an environment. -/
def LoggingPreferences.ofEnvironment (env : Environment) : LoggingPreferences where
  structured := env.flag "RUS1C_LOGGING_USE_STRUCTURED" false
  console := env.flag "RUS1C_LOGGING_ENABLE_CONSOLE" true
  minimum := ((env.value? "RUS1C_LOGGING_MIN_LEVEL").bind Log.Level.parse?).getD .warning
  fileContext := env.flag "RUS1C_LOGGING_INCLUDE_FILE_CONTEXT" true

/-- All that a user may choose. -/
structure Preferences where
  scanner : ScannerPreferences := {}
  logging : LoggingPreferences := {}
  deriving DecidableEq, Repr

/-- The environment variables that preferences depend on. -/
def Preferences.variables : List String :=
  ["RUS1C_SCANNER_COLLECT_METRICS", "RUS1C_SCANNER_LOG_ERROR_TOKENS",
   "RUS1C_SCANNER_LOG_IMPLICIT_CLOSE", "RUS1C_LOGGING_USE_STRUCTURED",
   "RUS1C_LOGGING_ENABLE_CONSOLE", "RUS1C_LOGGING_MIN_LEVEL", "RUS1C_LOGGING_INCLUDE_FILE_CONTEXT"]

/-- The preferences of an environment. -/
def Preferences.ofEnvironment (env : Environment) : Preferences where
  scanner := .ofEnvironment env
  logging := .ofEnvironment env

end Highlight1C
