import Highlight1C.Config.Preferences
import Highlight1C.Files.FileSystem
import Highlight1C.Log.Code
import Highlight1C.Text.Quoted
import Highlight1C.Toml.Document

/-!
# Configuration files

Preferences can be given in a TOML file, in the sections `scanner` and `logging`. What a file leaves out
is taken from the environment, and what it says beyond that is passed over.
-/

namespace Highlight1C

/-- Why a configuration cannot be used. -/
inductive ConfigError where
  /-- The file cannot be read. -/
  | unreadable (path : String) (reason : FileSystemError)
  /-- The text is not TOML, or a setting in it is of the wrong kind. -/
  | malformed (name : String)
  deriving DecidableEq, Repr

namespace ConfigError

/-- Where the configuration was to come from. -/
def source : ConfigError → String
  | .unreadable path _ => path
  | .malformed name => name

/-- What is said of a configuration that cannot be used, up to the reason. -/
def heading : ConfigError → String
  | .unreadable path _ => s!"Cannot read configuration file {path}: "
  | .malformed name => s!"Invalid configuration in {name}: "

/-- Why the configuration cannot be used. -/
def reason : ConfigError → String
  | .unreadable _ reason => reason.text
  | .malformed _ => "not valid TOML, or a setting of the wrong kind"

/-- What is said of a configuration that cannot be used. -/
def message (e : ConfigError) : String :=
  e.heading ++ e.reason

/-- A configuration that cannot be used as a record: of which kind the error is, where the configuration
was to come from, and the reason. -/
def record (e : ConfigError) : String :=
  let head := match e with
    | .unreadable _ _ => "Io \x7b path: "
    | .malformed _ => "Parse \x7b source_name: "
  head ++ Text.quoteText e.source.toList ++ ", message: " ++ Text.quoteText e.reason.toList ++ " \x7d"

/-- The code of an event about a configuration that cannot be used. -/
def code (_ : ConfigError) : Log.Code := .invalidConfiguration

end ConfigError

/-- A setting, or its default where it is left out. It must be of the right kind. -/
def settingOr {α : Type} (decode : Toml → Option α) (default : α) : Option Toml → Option α
  | none => some default
  | some value => decode value

/-- The log level that a configuration asks for. -/
def Log.Level.ofToml? (value : Toml) : Option Log.Level :=
  value.word?.bind Log.Level.ofWord?

/-- The scanner preferences of a section. -/
def ScannerPreferences.ofToml? (base : ScannerPreferences) (part : Toml) :
    Option ScannerPreferences := do
  match ← part.fields? ["collect_metrics", "log_error_tokens", "log_implicit_string_close"] with
  | [metrics, errors, close] =>
    return {
      collectMetrics := ← settingOr Toml.boolean? base.collectMetrics metrics
      logErrorTokens := ← settingOr Toml.boolean? base.logErrorTokens errors
      logImplicitClose := ← settingOr Toml.boolean? base.logImplicitClose close }
  | _ => none

/-- The logging preferences of a section. -/
def LoggingPreferences.ofToml? (base : LoggingPreferences) (part : Toml) :
    Option LoggingPreferences := do
  match ← part.fields? ["use_structured_logging", "enable_console_logging", "min_log_level",
      "include_file_context"] with
  | [structured, console, minimum, context] =>
    return {
      structured := ← settingOr Toml.boolean? base.structured structured
      console := ← settingOr Toml.boolean? base.console console
      minimum := ← settingOr Log.Level.ofToml? base.minimum minimum
      fileContext := ← settingOr Toml.boolean? base.fileContext context }
  | _ => none

namespace Preferences

/-- The preferences of a document. -/
def ofDocument? (base : Preferences) (document : Toml) : Option Preferences := do
  match ← document.fields? ["scanner", "logging"] with
  | [scanner, logging] =>
    return {
      scanner := ← settingOr base.scanner.ofToml? base.scanner scanner
      logging := ← settingOr base.logging.ofToml? base.logging logging }
  | _ => none

/-- The preferences of a text, which is known by a name. -/
def ofToml (env : Environment) (name : String) (text : List Char) :
    Except ConfigError Preferences :=
  match (Toml.parse? text).bind (ofDocument? (.ofEnvironment env)) with
  | some preferences => .ok preferences
  | none => .error (.malformed name)

/-- The preferences of a file. -/
def load (env : Environment) (fs : FileSystem) (path : String) : Except ConfigError Preferences :=
  match fs.readText path with
  | .ok text => ofToml env path text
  | .error reason => .error (.unreadable path reason)

end Preferences

end Highlight1C
