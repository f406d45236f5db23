import Highlight1C.Language
import Highlight1C.Log.Level

/-!
# Options of the command line

The command line names files and may hold options anywhere among them. An option with a value has it in
the next argument or, after an equals sign or directly after a single letter, in its own; the argument
`--` ends the options. Reading stops at the first argument that is wrong or that asks for the version or
for help.
-/

namespace Highlight1C.Command

/-- How a highlighted source is written. -/
inductive Format where
  /-- The listing of its tokens. -/
  | debug
  /-- All that is known, as JSON. -/
  | json
  /-- Figures only. -/
  | stats
  deriving DecidableEq, Repr

/-- The format with the given name. -/
def Format.ofName? (name : String) : Option Format :=
  if name = "debug" then some .debug
  else if name = "json" then some .json
  else if name = "stats" then some .stats
  else none

/-- What a user asks for. -/
structure Options where
  /-- The files; a single dash stands for standard input. -/
  files : List String
  /-- The language of all files, unless it is to be known by their extensions. -/
  language : Option Language := none
  format : Format := .debug
  /-- The configuration file. -/
  config : Option String := none
  /-- Whether events are written as JSON. -/
  structuredLogs : Bool := false
  /-- From which level on events are written, unless the configuration says so. -/
  logLevel : Option Log.Level := none
  deriving DecidableEq, Repr

/-- Why no work is done. -/
inductive Stop where
  /-- The command line is wrong. -/
  | misuse
  /-- The version is asked for. -/
  | version
  /-- Help is asked for. -/
  | help
  deriving DecidableEq, Repr

/-- The options that take a value. -/
inductive Setting where
  | language
  | format
  | config
  | logLevel
  deriving DecidableEq, Repr

/-- What an option is. -/
inductive Kind where
  /-- It takes a value. -/
  | setting (s : Setting)
  /-- It asks for events as JSON. -/
  | structuredLogs
  /-- It stops reading. -/
  | stop (s : Stop)
  deriving DecidableEq, Repr

/-- The option with a long name. -/
def longKind? (name : String) : Option Kind :=
  if name = "lang" then some (.setting .language)
  else if name = "format" then some (.setting .format)
  else if name = "config" then some (.setting .config)
  else if name = "log-level" then some (.setting .logLevel)
  else if name = "structured-logs" then some .structuredLogs
  else if name = "version" then some (.stop .version)
  else if name = "help" then some (.stop .help)
  else none

/-- The option with a letter. -/
def shortKind? (letter : Char) : Option Kind :=
  if letter = 'l' then some (.setting .language)
  else if letter = 'f' then some (.setting .format)
  else if letter = 'V' then some (.stop .version)
  else if letter = 'h' then some (.stop .help)
  else none

/-- What has been read of a command line. -/
structure Draft where
  /-- The files, last first. -/
  files : List String := []
  language : Option Language := none
  format : Option Format := none
  config : Option String := none
  structuredLogs : Bool := false
  logLevel : Option Log.Level := none
  deriving DecidableEq, Repr

namespace Draft

/-- A value for an option that must not have one yet. -/
def fresh {α : Type} (old new : Option α) : Except Stop (Option α) :=
  if old.isSome || new.isNone then .error .misuse else .ok new

/-- Takes in the value of an option. -/
def set (d : Draft) (setting : Setting) (value : String) : Except Stop Draft :=
  match setting with
  | .language => do return { d with language := ← fresh d.language (Language.ofName? value) }
  | .format => do return { d with format := ← fresh d.format (Format.ofName? value) }
  | .config => do
    return { d with config := ← fresh d.config (if value = "" then none else some value) }
  | .logLevel => do return { d with logLevel := ← fresh d.logLevel (Log.Level.parse? value) }

/-- Takes in an option without a value. -/
def turnOn (d : Draft) : Except Stop Draft :=
  if d.structuredLogs then .error .misuse else .ok { d with structuredLogs := true }

/-- Whether an argument is an option and so cannot be a value. A single dash is none. -/
def isOption (arg : String) : Bool :=
  match arg.toList with
  | '-' :: _ :: _ => true
  | _ => false

/-- An argument divided at its first equals sign. -/
def divide (arg : List Char) : String × Option String :=
  let name := arg.takeWhile (· != '=')
  match arg.drop name.length with
  | _ :: value => (String.ofList name, some (String.ofList value))
  | [] => (String.ofList name, none)

/-- What stands in an argument after a letter, if anything does, as a value. -/
def attached? : List Char → Option String
  | [] => none
  | '=' :: value => some (String.ofList value)
  | value => some (String.ofList value)

/-- Reads an option of a kind, with the value in its own argument if there is one, and gives the
arguments that are left. -/
def option (d : Draft) (kind : Option Kind) (value : Option String) (rest : List String) :
    Except Stop (Draft × List String) :=
  match kind, value with
  | some (.setting s), some v => (d.set s v).map (·, rest)
  | some (.setting s), none =>
    match rest with
    | v :: rest => if isOption v then .error .misuse else (d.set s v).map (·, rest)
    | [] => .error .misuse
  | some .structuredLogs, none => d.turnOn.map (·, rest)
  | some (.stop s), none => .error s
  | _, _ => .error .misuse

/-- Reads the option that a letter stands for. A letter that stops reading does so whatever follows it. -/
def letter (d : Draft) (c : Char) (more : List Char) (rest : List String) :
    Except Stop (Draft × List String) :=
  match shortKind? c with
  | some (.stop s) => .error s
  | kind => d.option kind (attached? more) rest

/-- Reads one argument, and gives those that are left. -/
def step (d : Draft) (arg : String) (rest : List String) : Except Stop (Draft × List String) :=
  match arg.toList with
  | ['-', '-'] => .ok ({ d with files := rest.reverse ++ d.files }, [])
  | '-' :: '-' :: name => d.option (longKind? (divide name).1) (divide name).2 rest
  | '-' :: c :: more => d.letter c more rest
  | _ => .ok ({ d with files := arg :: d.files }, rest)

theorem length_of_map_eq_ok {r : Except Stop Draft} {d : Draft} {rest rest' : List String}
    (h : r.map (·, rest) = .ok (d, rest')) : rest'.length ≤ rest.length := by
  cases r with
  | error stop => simp [Except.map] at h
  | ok d' =>
    simp only [Except.map, Except.ok.injEq, Prod.mk.injEq] at h
    simp [h.2]

/-- An option leaves no more arguments than there were. -/
theorem length_option {d d' : Draft} {kind : Option Kind} {value : Option String}
    {rest rest' : List String} (h : d.option kind value rest = .ok (d', rest')) :
    rest'.length ≤ rest.length := by
  unfold option at h
  split at h
  · exact length_of_map_eq_ok h
  · split at h
    · split at h
      · simp at h
      · exact Nat.le_succ_of_le (length_of_map_eq_ok h)
    · simp at h
  · exact length_of_map_eq_ok h
  · simp at h
  · simp at h

/-- A step leaves no more arguments than there were. -/
theorem length_step {d d' : Draft} {arg : String} {rest rest' : List String}
    (h : d.step arg rest = .ok (d', rest')) : rest'.length ≤ rest.length := by
  unfold step at h
  split at h
  · simp only [Except.ok.injEq, Prod.mk.injEq] at h
    simp [← h.2]
  · exact length_option h
  · unfold letter at h
    split at h
    · simp at h
    · exact length_option h
  · simp only [Except.ok.injEq, Prod.mk.injEq] at h
    simp [h.2]

/-- Reads arguments one after the other. -/
def readAll (d : Draft) : List String → Except Stop Draft
  | [] => .ok d
  | arg :: rest =>
    match _hstep : d.step arg rest with
    | .error stop => .error stop
    | .ok (d, rest') => d.readAll rest'
termination_by args => args.length
decreasing_by
  have := length_step _hstep
  simp only [List.length_cons]
  omega

end Draft

/-- The options of a command line, without the name of the program. At least one file is needed. -/
def Options.parse (args : List String) : Except Stop Options := do
  let d ← Draft.readAll {} args
  if d.files.isEmpty then throw .misuse
  return {
    files := d.files.reverse
    language := d.language
    format := d.format.getD .debug
    config := d.config
    structuredLogs := d.structuredLogs
    logLevel := d.logLevel }

end Highlight1C.Command
