import Highlight1C.Config.Preferences
import Highlight1C.Log.Collector
import Highlight1C.Log.Service
import Highlight1C.Number.Fixed

/-!
# The logging of a program

One `Logging` value goes through all the work: the preferences once they are chosen, the service and
the collector once logging is set up, the file that is being worked on, and what has been written so
far. Before logging is set up, nothing is logged and nothing is collected. Errors and warnings about a
file are collected whatever the minimum level of the service.
-/

namespace Highlight1C

/-- The file that is being worked on. -/
structure FileContext where
  path : String
  id : Nat
  deriving DecidableEq, Repr

/-- Logging that has been set up. -/
structure ActiveLogging where
  service : Log.Service
  collector : Log.Collector
  deriving DecidableEq, Repr

/-- Why logging cannot be set up. -/
inductive SetupError where
  /-- The preferences have been chosen before. -/
  | preferencesChosen
  /-- Logging has been set up before. -/
  | alreadyActive
  /-- The limits are unfit for logging. -/
  | unfitLimits (flaw : String)
  deriving DecidableEq, Repr

/-- What is said when logging cannot be set up. -/
def SetupError.message : SetupError → String
  | .preferencesChosen => "Runtime preferences already initialized"
  | .alreadyActive => "Global logger already initialized"
  | .unfitLimits flaw => s!"Configuration validation failed: {flaw}"

/-- The state of a program's logging. -/
structure Logging where
  clock : Log.Clock
  environment : Environment := []
  /-- The preferences, once they are chosen. -/
  chosen : Option LoggingPreferences := none
  /-- The service and the collector, once logging is set up. -/
  active : Option ActiveLogging := none
  /-- The file that is being worked on. -/
  context : Option FileContext := none
  /-- What has been written. -/
  output : Log.Output := {}
  deriving DecidableEq, Repr

namespace Logging

open Log (Event Code Level)

/-- The preferences in force: those chosen, or those of the environment. -/
def preferences (l : Logging) : LoggingPreferences :=
  l.chosen.getD (.ofEnvironment l.environment)

/-- Whether logging is set up. -/
def isActive (l : Logging) : Bool :=
  l.active.isSome

/-- The minimum level of the service, once there is one. -/
def minimum? (l : Logging) : Option Level :=
  l.active.map (·.service.minimum)

/-- Whether debugging notes would be logged. -/
def debugEnabled (l : Logging) : Bool :=
  l.active.any (·.service.admits .debug)

/-! ## Setting up -/

/-- Chooses the preferences, which can be done once. -/
def choose (l : Logging) (p : LoggingPreferences) : Except SetupError Logging :=
  match l.chosen with
  | some _ => .error .preferencesChosen
  | none => .ok { l with chosen := some p }

/-- Sets logging up with a service, which can be done once, and says so. -/
def activate (l : Logging) (service : Log.Service) : Except SetupError Logging :=
  match l.active with
  | some _ => .error .alreadyActive
  | none =>
    let ready := Event.success .systemReady "Global logging system initialized"
    .ok { l with
      active := some ⟨service, .empty⟩
      output := service.log l.clock ready l.output }

/-- The service that the preferences ask for. -/
def configuredService (l : Logging) : Log.Service :=
  let p := l.preferences
  ⟨if !p.console then .silent else if p.structured then .structured else .console, p.minimum⟩

/-- Sets logging up as the preferences ask. -/
def activateConfigured (l : Logging) : Except SetupError Logging :=
  match Limits.current.loggingFlaw? with
  | some flaw => .error (.unfitLimits flaw)
  | none => l.activate l.configuredService

/-! ## The file that is being worked on -/

/-- Begins work on a file. -/
def beginFile (l : Logging) (path : String) (id : Nat) : Logging :=
  { l with
    context := some ⟨path, id⟩
    active := l.active.map fun a => { a with collector := a.collector.beginFile path } }

/-- Ends work on a file. -/
def endFile (l : Logging) : Logging :=
  { l with context := none }

/-! ## Events -/

/-- An event with its values, and with the file that is being worked on if that is wanted. -/
def dress (l : Logging) (e : Event) (values : List (String × String)) : Event :=
  let e := e.withValues values
  match l.context with
  | some file =>
    if l.preferences.fileContext then
      (e.withValue "file" file.path).withValue "file_id" (toString file.id)
    else e
  | none => e

/-- Collects an event for the file that is being worked on. -/
def collected (l : Logging) (c : Log.Collector) (e : Event) : Log.Collector :=
  match l.context with
  | some file => c.record file.path e
  | none => c

/-- Logs an event if logging is set up; with `collect`, it is also collected. -/
def post (l : Logging) (collect : Bool) (e : Event) (values : List (String × String)) : Logging :=
  match l.active with
  | none => l
  | some a =>
    let e := l.dress e values
    { l with
      active := some { a with
        collector := if collect then l.collected a.collector e else a.collector }
      output := a.service.log l.clock e l.output }

/-- Logs an error. -/
def error (l : Logging) (code : Code) (message : String) (span : Option Span)
    (values : List (String × String)) : Logging :=
  l.post true { Event.error code message with span } values

/-- Logs a warning, under a code if it has one. -/
def warning (l : Logging) (code : Option Code) (message : String) (span : Option Span)
    (values : List (String × String)) : Logging :=
  let e := match code with
    | some code => Event.codedWarning code message
    | none => Event.warning message
  l.post true { e with span } values

/-- Logs that something succeeded. -/
def success (l : Logging) (code : Code) (message : String) (values : List (String × String)) :
    Logging :=
  l.post false (Event.success code message) values

/-- Logs a piece of information. -/
def info (l : Logging) (message : String) (values : List (String × String)) : Logging :=
  l.post false (Event.info message) values

/-- Logs a debugging note, if such notes are logged. -/
def debug (l : Logging) (message : String) (span : Option Span) (values : List (String × String)) :
    Logging :=
  if l.debugEnabled then l.post false { Event.debug message with span } values else l

/-- Logs an error without any context; before logging is set up, it goes to standard error. -/
def plainError (l : Logging) (code : Code) (message : String) : Logging :=
  match l.active with
  | some a => { l with output := a.service.log l.clock (Event.error code message) l.output }
  | none =>
    { l with output := l.output.write s!"[ERROR] FALLBACK: [{code.text}] {message}\n" }

/-- Writes a text to standard error. -/
def write (l : Logging) (text : String) : Logging :=
  { l with output := l.output.write text }

/-! ## Reports -/

/-- Figures about what was collected. -/
def summary (l : Logging) : Log.Summary :=
  match l.active with
  | some a => a.collector.summary
  | none => {}

/-- The report on what was collected, once there is a collector. -/
def report? (l : Logging) : Option String :=
  l.active.map (·.collector.report)

/-- How logging is configured. -/
def configuration (l : Logging) : String :=
  let limits := Limits.current
  let p := l.preferences
  "\n".intercalate [
    s!"Logging Configuration ({Limits.origin}):",
    "=== Limits (Compile-time) ===",
    s!"- Log buffer size: {limits.logBufferSize}",
    s!"- Max collected events: {limits.maxErrorCollection}",
    s!"- Max events per file: {limits.maxLogEventsPerFile}",
    s!"- Max message length: {limits.maxLogMessageLength}",
    "=== Preferences (Runtime) ===",
    s!"- Min log level: {p.minimum.title}",
    s!"- Structured logging: {Event.truth p.structured}",
    s!"- Console logging: {Event.truth p.console}",
    s!"- Include file context: {Event.truth p.fileContext}"]

/-- The share of the room for events that is taken. -/
def filled (c : Log.Collector) : Number.Fraction :=
  Number.Fraction.nearest ⟨c.total, Limits.current.maxErrorCollection⟩

/-- How full a collector is, in numbers and in per cent. -/
def capacity (c : Log.Collector) : String :=
  let share := filled c
  let percent := Number.Fraction.nearest ⟨share.num * 100, share.den⟩
  s!"Capacity: {c.total}/{Limits.current.maxErrorCollection} ({percent.fixed 1}%)\n"

/-- The state of logging, for people. -/
def diagnostics (l : Logging) : String :=
  let capacity := match l.active with
    | some a => capacity a.collector
    | none => ""
  s!"=== Logging System Diagnostics ===\nInitialized: {Event.truth l.isActive}\n{capacity}\n{l.configuration}"

end Logging

end Highlight1C
