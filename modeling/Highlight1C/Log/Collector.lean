import Highlight1C.Log.Event
import Highlight1C.Path

/-!
# Errors and warnings by file

A collector keeps the errors and warnings of each file, up to a number for each file and a number in
all. The first event beyond a file's number leaves a warning that there were too many; those after it
leave nothing. Files are kept in the order of their paths, under the spelling that came first.
-/

namespace Highlight1C.Log

/-- What was collected for a file. -/
structure FileRecord where
  /-- The path of the file, as it was first spelled. -/
  path : String
  /-- Its events, the oldest first. -/
  events : List Event
  deriving DecidableEq, Repr

namespace FileRecord

/-- How many errors a file has. -/
def errorCount (r : FileRecord) : Nat := r.events.countP Event.isError

/-- How many warnings a file has. -/
def warningCount (r : FileRecord) : Nat := r.events.countP Event.isWarning

end FileRecord

/-- Events by file. -/
structure Collector where
  /-- The files in the order of their paths. -/
  files : List FileRecord := []
  /-- The files that were begun, by path. -/
  begun : List String := []
  deriving DecidableEq, Repr

/-- Figures about what was collected. -/
structure Summary where
  files : Nat := 0
  /-- Files without errors and warnings. -/
  clean : Nat := 0
  /-- Files with errors. -/
  failed : Nat := 0
  /-- Files with warnings and without errors. -/
  warned : Nat := 0
  errors : Nat := 0
  warnings : Nat := 0
  deriving DecidableEq, Repr

namespace Collector

/-- The collector with nothing in it. -/
def empty : Collector := {}

/-- Changes the events of the file at a path; a file that is not there yet starts with none. -/
def alter (path : String) (f : List Event → List Event) : List FileRecord → List FileRecord
  | [] => [⟨path, f []⟩]
  | r :: rest =>
    match Path.order path r.path with
    | .eq => { r with events := f r.events } :: rest
    | .lt => ⟨path, f []⟩ :: r :: rest
    | .gt => r :: alter path f rest

/-- How many events are collected. -/
def total (c : Collector) : Nat :=
  c.files.foldl (fun n r => n + r.events.length) 0

/-- The warning that stands for all events of a file beyond its number. -/
def tooMany : Event :=
  Event.warning s!"Too many events for file (limit: {Limits.current.maxLogEventsPerFile})"

/-- The events of a file with one more, as far as there is room for it. -/
def addEvent (event : Event) (events : List Event) : List Event :=
  if events.length < Limits.current.maxLogEventsPerFile then events ++ [event]
  else if events.length = Limits.current.maxLogEventsPerFile then events ++ [tooMany]
  else events

/-- Collects an event for a file, as far as there is room for it. -/
def record (c : Collector) (path : String) (event : Event) : Collector :=
  if c.total < Limits.current.maxErrorCollection then
    { c with files := alter path (addEvent event) c.files }
  else c

/-- Notes that a file is begun. -/
def beginFile (c : Collector) (path : String) : Collector where
  files := alter path id c.files
  begun := if c.begun.any (Path.same path) then c.begun else path :: c.begun

/-- The events of a file. -/
def events (c : Collector) (path : String) : List Event :=
  match c.files.find? (fun r => Path.same path r.path) with
  | some r => r.events
  | none => []

/-- The errors of a file. -/
def errors (c : Collector) (path : String) : List Event :=
  (c.events path).filter Event.isError

/-- Whether a file was begun. -/
def hasBegun (c : Collector) (path : String) : Bool :=
  c.begun.any (Path.same path)

/-- The figures with one more file. -/
def addFile (s : Summary) (r : FileRecord) : Summary :=
  let errors := r.errorCount
  let warnings := r.warningCount
  let s := { s with files := s.files + 1, errors := s.errors + errors,
                    warnings := s.warnings + warnings }
  if errors > 0 then { s with failed := s.failed + 1 }
  else if warnings > 0 then { s with warned := s.warned + 1 }
  else { s with clean := s.clean + 1 }

/-- Figures about all files. -/
def summary (c : Collector) : Summary :=
  c.files.foldl addFile {}

/-- An event in a report: what it is, where, and its context but for the file. -/
def entry (label path : String) (e : Event) : String :=
  let place := match e.span with
    | some s => s!"\n  --> {path}:{s.start.label}"
    | none => ""
  let values := e.context.filter fun (k, _) => k != "file" && k != "file_id"
  values.foldl (fun out (k, v) => s!"{out}  = {k}: {v}\n")
    s!"{label}[{e.code.text}]: {e.message}{place}\n"

/-- An error in a report, with what to do about it if that is known. -/
def errorEntry (path : String) (e : Event) : String :=
  let action := e.code.action
  if action = "No specific action available" then entry "error" path e
  else entry "error" path e ++ s!"  = help: {action}\n"

/-- A file in a report: its errors, its warnings and an empty line. A file for which nothing was
collected is passed over. -/
def fileReport (r : FileRecord) : String :=
  if r.events.isEmpty then ""
  else
    String.join ((r.events.filter Event.isError).map (errorEntry r.path)) ++
      String.join ((r.events.filter Event.isWarning).map (entry "warning" r.path)) ++ "\n"

/-- The closing line of a report. -/
def closingLine (s : Summary) : String :=
  s!"Highlighted {s.files} file(s): {s.clean} ok, {s.warned} with warnings, {s.failed} failed\n"

/-- The report on all files. -/
def report (c : Collector) : String :=
  String.join (c.files.map fileReport) ++ closingLine c.summary

end Collector

end Highlight1C.Log
