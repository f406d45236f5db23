import Highlight1C.Command.Options
import Highlight1C.Config.File
import Highlight1C.Highlight
import Highlight1C.Source.LineMap
import Highlight1C.Token.Listing

/-!
# The command line program

The program highlights the files on its command line one after the other and writes the results to
standard output. Events, caret reports and the closing report go to standard error. It exits with 0
if all went well, with 1 if a file or the configuration cannot be used, and with 2 if the command
line is wrong.

`Command.run` is the whole program as a function of what it finds when it is started.
-/

namespace Highlight1C.Command

/-- What the program finds when it is started. -/
structure World where
  files : FileSystem
  /-- All of standard input. -/
  stdin : List UInt8
  environment : Environment
  clock : Log.Clock

/-- What the program leaves behind. -/
structure Outcome where
  exit : Nat
  stdout : String
  stderr : String
  deriving DecidableEq, Repr

/-- The name and the version of the program. -/
def versionLine : String := "rus1c-highlight 0.1.0\n"

/-- A word of the command line in the text of help: bold. -/
def literal (style : Text.Style) (word : String) : String :=
  style.paint ["1"] word

/-- A heading in the text of help: bold and underlined. -/
def heading (style : Text.Style) (title : String) : String :=
  style.paint ["1", "4"] s!"{title}:"

/-- How the program is called. -/
def usage (style : Text.Style) : String :=
  heading style "Usage" ++ " " ++ literal style "rus1c-highlight" ++ " [OPTIONS] <FILES>...\n"

/-- A line about an option: its letter, its name, its value with what comes before the description,
and the description. -/
def optionHelp (style : Text.Style) (letter : Option Char) (name value about : String) : String :=
  let start := match letter with
    | some c => literal style ("-" ++ c.toString) ++ ", "
    | none => "    "
  let name := literal style ("--" ++ name)
  s!"  {start}{name}{value}{about}\n"

/-- What the program says when help is asked for. -/
def help (style : Text.Style) : String :=
  let option := optionHelp style
  String.join [
    "Tokenize 1C:Enterprise module code and queries\n\n", usage style, "\n",
    heading style "Arguments", "\n  <FILES>...  Source files; `-` reads standard input\n\n",
    heading style "Options", "\n",
    option (some 'l') "lang" " <LANG>            "
      "Scanner to use instead of picking one by file extension",
    option (some 'f') "format" " <FORMAT>        "
      "[default: debug] [possible values: debug, json, stats]",
    option none "config" " <CONFIG>        "
      "TOML preference file with [scanner] and [logging] sections",
    option none "structured-logs" "        " "Write log events to stderr as JSON lines",
    option none "log-level" " <LOG_LEVEL>  "
      "Minimum level of library log events (error, warn, info, debug)",
    option (some 'h') "help" "                   " "Print help",
    option (some 'V') "version" "                " "Print version"]

/-- The name under which standard input is reported. -/
def stdinName : String := "<stdin>"

/-- How an input is named in reports. -/
def inputName (input : String) : String :=
  if input = "-" then stdinName else input

/-- The state of the program between two files. -/
structure State where
  logging : Logging
  /-- What is left of standard input. -/
  stdin : List UInt8
  /-- What was written to standard output. -/
  stdout : String := ""
  /-- How many inputs could not be highlighted. -/
  failures : Nat := 0

/-- The preferences of a configuration file or else of the environment, with what the command line
says beyond them. -/
def preferences (world : World) (options : Options) : Except ConfigError Preferences := do
  let base ← match options.config with
    | some path => Preferences.load world.environment world.files path
    | none => pure (Preferences.ofEnvironment world.environment)
  return { base with logging := { base.logging with
    structured := base.logging.structured || options.structuredLogs
    minimum := options.logLevel.getD base.logging.minimum } }

/-- Sets up a log backend that takes records from a level on, unless the environment says otherwise.
What cannot be read there is warned about. -/
def activateBackend (logging : Logging) (minimum : Log.Level) : Except SetupError Logging :=
  let filter : Log.Filter := { ceiling := some minimum }
  let style := Log.styleOfEnvironment logging.environment
  match Log.Specification.ofEnvironment? logging.environment with
  | none => logging.activate ⟨.backend filter style, minimum⟩
  | some specification =>
    let warnings := String.join (specification.errors.map (·.warning))
    let logging := if warnings = "" then logging else logging.write warnings
    logging.activate ⟨.backend (filter.refine specification) style, minimum⟩

/-- Sets logging up. Events go to standard error as JSON or not at all, if that is chosen, and else
as records to a log backend. -/
def setUpLogging (world : World) (chosen : LoggingPreferences) : Except SetupError Logging := do
  let logging ← Logging.choose { clock := world.clock, environment := world.environment } chosen
  let logging ←
    if chosen.structured || !chosen.console then logging.activateConfigured
    else match Limits.current.loggingFlaw? with
      | some flaw => .error (.unfitLimits flaw)
      | none => activateBackend logging chosen.minimum
  return if chosen.minimum = .debug then logging.write logging.diagnostics else logging

/-- What is said when standard input is given without a language. -/
def stdinNeedsLanguage : String := "standard input needs --lang"

/-- Highlights standard input, which is then used up. -/
def highlightStdin (s : State) (language : Option Language) (scanner : ScannerPreferences) :
    Except Fault (Except String Highlight × State) := do
  match language with
  | none =>
    let logging := s.logging.plainError .unknownLanguage stdinNeedsLanguage
    return (.error stdinNeedsLanguage, { s with logging })
  | some language =>
    match textOfBytes s.stdin with
    | .error e => return (.error e.text, { s with stdin := [] })
    | .ok text =>
      let source := match text with
        | c :: rest => if c = Text.byteOrderMarkChar then rest else text
        | [] => []
      let (result, logging) ← highlightSource language source scanner s.logging
      return (result.mapError (·.message), { s with stdin := [], logging })

/-- Highlights an input, or says why not. -/
def highlightInput (world : World) (s : State) (input : String) (language : Option Language)
    (scanner : ScannerPreferences) : Except Fault (Except String Highlight × State) := do
  if input = "-" then highlightStdin s language scanner
  else
    let (result, logging) ← highlightFile world.files input language scanner s.logging
    return (result.mapError (·.message), { s with logging })

/-- Points at the first character that was not recognised, if there is one. -/
def reportFirstError (name : String) (h : Highlight) (logging : Logging) : Except Fault Logging := do
  match h.tokens.errors with
  | [] => return logging
  | first :: _ =>
    let message := s!"{name}: unrecognized character {Text.quoteText first.text}"
    return logging.write (← (LineMap.ofSource h.tokens.text).report first.span message)

/-- A highlighted source in a format. -/
def render (name : String) (h : Highlight) (elapsed : String) : Format → String
  | .debug => String.ofList h.tokens.listing ++ "\n"
  | .json => (h.json elapsed).pretty ++ "\n"
  | .stats =>
    s!"== {name} ({h.language.name}) ==\n{h.metricsOrCount.summary}time: {elapsed} ms\n"

/-- Deals with one input. -/
def processInput (world : World) (options : Options) (scanner : ScannerPreferences) (s : State)
    (index : Nat) (input : String) : Except Fault State := do
  let name := inputName input
  let s := { s with logging := s.logging.beginFile name index }
  let (result, s) ← highlightInput world s input options.language scanner
  let logging := s.logging.endFile
  match result with
  | .ok h =>
    let logging ← reportFirstError name h logging
    return { s with logging, stdout := s.stdout ++ render name h world.clock.elapsed options.format }
  | .error message =>
    return { s with logging := logging.write s!"error: {name}: {message}\n",
                    failures := s.failures + 1 }

/-- Deals with all inputs in order, the first of which has the given number. -/
def processInputs (world : World) (options : Options) (scanner : ScannerPreferences) (s : State)
    (index : Nat) : List String → Except Fault State
  | [] => .ok s
  | input :: rest => do
    let s ← processInput world options scanner s index input
    processInputs world options scanner s (index + 1) rest

/-- Writes the closing report, if there was more than one input or any failed. -/
def close (options : Options) (s : State) : State :=
  match s.logging.report? with
  | some report =>
    if 1 < options.files.length || 0 < s.failures then
      { s with logging := s.logging.write report }
    else s
  | none => s

/-- The outcome of a program that cannot start its work. -/
def refusal (reason : String) : Outcome := ⟨1, "", s!"Error: {reason}\n"⟩

/-- Does what the options ask for. -/
def runOptions (world : World) (options : Options) : Except Fault Outcome := do
  match preferences world options with
  | .error e => return refusal e.record
  | .ok chosen =>
    match setUpLogging world chosen.logging with
    | .error e => return refusal (Text.quoteText e.message.toList)
    | .ok logging =>
      let s ← processInputs world options chosen.scanner { logging, stdin := world.stdin } 0
        options.files
      let s := close options s
      return ⟨if 0 < s.failures then 1 else 0, s.stdout, s.logging.output.rendered⟩

/-- The program: its arguments, without its name, and what it finds. -/
def run (args : List String) (world : World) : Except Fault Outcome :=
  match Options.parse args with
  | .error .misuse => .ok ⟨2, "", usage (.ofEnvironment world.environment)⟩
  | .error .version => .ok ⟨0, versionLine, ""⟩
  | .error .help => .ok ⟨0, help (.ofEnvironment world.environment), ""⟩
  | .ok options => runOptions world options

end Highlight1C.Command
