import Highlight1C.Log.Event
import Highlight1C.Log.Filter

/-!
# Where log events go

A service passes events from its minimum level up to a sink. A sink keeps them in memory, writes
them to standard error as lines or as JSON, hands them as records to a log backend, or drops them.
What all sinks have produced is an `Output`, which also holds what the program itself writes to
standard error, so that the order of both is kept.
-/

namespace Highlight1C.Log

/-- Where a service sends its events. -/
inductive Sink where
  /-- Kept in memory. -/
  | memory
  /-- Written as lines. -/
  | console
  /-- Written as JSON objects, one on a line. -/
  | structured
  /-- Handed as records to a log backend with a filter, which lays them out in a style. -/
  | backend (filter : Filter) (style : Text.Style)
  /-- Dropped. -/
  | silent
  deriving DecidableEq, Repr

/-- Something written to standard error. -/
inductive Chunk where
  /-- Text, as it is. -/
  | text (s : String)
  /-- A record, laid out by the log backend in a style. -/
  | record (r : Record) (style : Text.Style)
  deriving DecidableEq, Repr

/-- What a chunk looks like on the screen. -/
def Chunk.render : Chunk → String
  | .text s => s
  | .record r style => r.line style

/-- What sinks have produced, the newest first. -/
structure Output where
  /-- The events kept in memory. -/
  kept : List Event := []
  /-- What was written to standard error. -/
  screen : List Chunk := []
  deriving DecidableEq, Repr

namespace Output

/-- Writes a text to standard error. -/
def write (o : Output) (text : String) : Output :=
  { o with screen := .text text :: o.screen }

/-- The events kept in memory, the oldest first. -/
def events (o : Output) : List Event := o.kept.reverse

/-- The records handed to a log backend, the oldest first. -/
def records (o : Output) : List Record :=
  o.screen.reverse.filterMap fun
    | .record r _ => some r
    | .text _ => none

/-- All that was written to standard error. -/
def rendered (o : Output) : String :=
  o.screen.reverse.foldl (fun out chunk => out ++ chunk.render) ""

/-- The errors kept in memory. -/
def errors (o : Output) : List Event := o.events.filter Event.isError

/-- The events kept in memory that carry a code. -/
def withCode (o : Output) (code : Code) : List Event := o.events.filter (·.code == code)

/-- Whether a success with this code is kept in memory. -/
def hasSuccess (o : Output) (code : Code) : Bool :=
  o.events.any fun e => e.isInfo && e.code == code

end Output

/-- The readings of the clock that go into what is written. -/
structure Clock where
  /-- The time of day of an event. -/
  stamp : String
  /-- The milliseconds that a piece of work took. -/
  elapsed : String
  deriving DecidableEq, Repr

/-- A sink with the level from which events are passed to it. -/
structure Service where
  sink : Sink
  minimum : Level
  deriving DecidableEq, Repr

/-- Sends an event to a sink. Those that write to standard error have a minimum level of their own.
-/
def Sink.send (sink : Sink) (minimum : Level) (clock : Clock) (e : Event) (o : Output) : Output :=
  match sink with
  | .memory => { o with kept := e :: o.kept }
  | .console => if minimum.admits e.level then o.write (e.line ++ "\n") else o
  | .structured =>
    if minimum.admits e.level then o.write ((e.json clock.stamp).compact ++ "\n") else o
  | .backend filter style =>
    let r : Record := ⟨e.level, e.lineWithContext⟩
    if filter.admits r then { o with screen := .record r style :: o.screen } else o
  | .silent => o

namespace Service

/-- Whether events of a level are passed on. -/
def admits (s : Service) (level : Level) : Bool :=
  s.minimum.admits level

/-- Passes an event on if its level is high enough. -/
def log (s : Service) (clock : Clock) (e : Event) (o : Output) : Output :=
  if s.admits e.level then s.sink.send s.minimum clock e o else o

end Service

end Highlight1C.Log
