import Highlight1C.Log.Record
import Highlight1C.Pattern.Reading

/-!
# Filters of records

A log backend takes records up to a level, and only those in which a pattern occurs, if there is
one. A user may say otherwise than the program: a specification lists names with levels, separated
by commas, and may end with a pattern after a slash. Of the levels, the last one for the name of the
library counts. A part that cannot be read is left out, with a warning.
-/

namespace Highlight1C.Log

/-- Which records a backend takes. -/
structure Filter where
  /-- The level up to which records are taken, or none if no record is taken. -/
  ceiling : Option Level
  /-- The pattern that must occur in the text of a record. -/
  pattern : Option Pattern := none
  deriving DecidableEq, Repr

namespace Filter

/-- Whether records of a level are taken. -/
def admitsLevel (f : Filter) (level : Level) : Bool :=
  f.ceiling.any (·.admits level)

/-- Whether a record is taken. -/
def admits (f : Filter) (r : Record) : Bool :=
  f.admitsLevel r.level && f.pattern.all (·.occursIn r.text.toList)

end Filter

/-! ## Specifications -/

/-- A level for a name, or for all that have no level of their own. -/
structure Directive where
  name : Option String
  ceiling : Option Level
  deriving DecidableEq, Repr

/-- Why a part of a specification cannot be read. -/
inductive SpecificationError where
  /-- There is more than one slash. -/
  | slashes (specification : String)
  /-- There is no such level. -/
  | level (word : String)
  /-- There is more than one equals sign. -/
  | directive (text : String)
  /-- The pattern has a mistake. -/
  | pattern (report : String)
  deriving DecidableEq, Repr

namespace SpecificationError

/-- What is said about a part that cannot be read. -/
def message : SpecificationError → String
  | .slashes specification => s!"invalid logging spec '{specification}' (too many '/'s)"
  | .level word => s!"invalid logging spec '{word}'"
  | .directive text => s!"invalid logging spec '{text}'"
  | .pattern report => s!"invalid regex filter - {report}"

/-- The warning about a part that cannot be read. -/
def warning (e : SpecificationError) : String :=
  s!"warning: {e.message}, ignoring it\n"

end SpecificationError

/-- The level that a word names, in any case: `off`, one of the levels of records, or `trace`, which
lies below them all. -/
def ceiling? (word : List Char) : Option (Option Level) :=
  match String.ofList (Text.lowerAscii word) with
  | "off" => some none
  | "error" => some (some .error)
  | "warn" => some (some .warning)
  | "info" => some (some .info)
  | "debug" => some (some .debug)
  | "trace" => some (some .debug)
  | _ => none

/-- Reads a part of a specification between commas. A name without a level admits everything. -/
def Directive.parse (text : List Char) : Except SpecificationError Directive :=
  match Text.split '=' text with
  | [word] =>
    match ceiling? word with
    | some ceiling => .ok ⟨none, ceiling⟩
    | none => .ok ⟨some (String.ofList word), some .debug⟩
  | [name, word] =>
    let word := Text.trim word
    if word.isEmpty then .ok ⟨some (String.ofList name), some .debug⟩
    else match ceiling? word with
      | some ceiling => .ok ⟨some (String.ofList name), ceiling⟩
      | none => .error (.level (String.ofList word))
  | _ => .error (.directive (String.ofList text))

/-- What a specification says. -/
structure Specification where
  directives : List Directive := []
  pattern : Option Pattern := none
  /-- The parts that could not be read. -/
  errors : List SpecificationError := []
  deriving DecidableEq, Repr

namespace Specification

/-- The specification with one more part between commas. -/
def addDirective (s : Specification) (text : List Char) : Specification :=
  let text := Text.trim text
  if text.isEmpty then s
  else match Directive.parse text with
    | .ok d => { s with directives := s.directives ++ [d] }
    | .error e => { s with errors := s.errors ++ [e] }

/-- The directives between commas. -/
def ofDirectives (text : List Char) : Specification :=
  (Text.split ',' text).foldl addDirective {}

/-- The specification with the pattern that is written in a text. -/
def addPattern (s : Specification) (text : List Char) : Specification :=
  match Pattern.parse text with
  | .ok p => { s with pattern := some p }
  | .error report => { s with errors := s.errors ++ [.pattern report] }

/-- Reads a specification. -/
def parse (text : String) : Specification :=
  match Text.split '/' text.toList with
  | [directives] => ofDirectives directives
  | [directives, pattern] => (ofDirectives directives).addPattern pattern
  | _ => { errors := [.slashes text] }

/-- The level for the name of the library, if there is one. -/
def ceiling? (s : Specification) : Option (Option Level) :=
  (s.directives.reverse.find? (·.name == some recordTarget)).map (·.ceiling)

end Specification

/-- The filter as a specification changes it. -/
def Filter.refine (f : Filter) (s : Specification) : Filter where
  ceiling := s.ceiling?.getD f.ceiling
  pattern := s.pattern

/-- The environment variable that holds a specification. -/
def specificationVariable : String := "RUST_LOG"

/-- The specification of an environment, if there is one. -/
def Specification.ofEnvironment? (env : Environment) : Option Specification :=
  (env.value? specificationVariable).map parse

end Highlight1C.Log
