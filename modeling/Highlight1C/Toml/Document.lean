import Highlight1C.Toml.Number
import Highlight1C.Toml.Tables

/-!
# TOML documents

A document is a list of statements, one on a line: a header that begins a table, a header that begins
the next table of a list, or a key with its value. `Toml.parse?` reads the statements and carries them
out one after the other.

Values within values are read up to a fixed depth, and keys have fewer parts than that.
-/

namespace Highlight1C.Toml

/-- Something that reads the front of a text, and leaves the rest. -/
abbrev Reader (α : Type) := StateT (List Char) Option α

namespace Reader

/-- Reads a character if it is the given one. -/
def char (c : Char) : Reader Unit := fun text =>
  match text with
  | d :: rest => if d = c then some ((), rest) else none
  | [] => none

/-- The next character, which is left unread. -/
def peek : Reader (Option Char) := fun text =>
  some (text.head?, text)

/-- Reads the characters that satisfy `p`, up to the first that does not. -/
def takeWhile (p : Char → Bool) : Reader (List Char) := fun text =>
  some (text.takeWhile p, text.dropWhile p)

/-- Reads on until `item` no longer applies, at most `bound` times, with the items read before, last item
first. -/
def manyFrom {α : Type} (item : Reader α) (read : List α) : Nat → Reader (List α)
  | 0 => pure read.reverse
  | bound + 1 => fun text =>
    match item text with
    | some (a, rest) => manyFrom item (a :: read) bound rest
    | none => some (read.reverse, text)

/-- Reads on until `item` no longer applies, at most `bound` times. -/
def many {α : Type} (bound : Nat) (item : Reader α) : Reader (List α) :=
  manyFrom item [] bound

/-- Reads blanks and tabs. -/
def blanks : Reader Unit := do
  let _ ← takeWhile isBlank

/-- Reads a line's end. -/
def lineEnd : Reader Unit := fun text =>
  (afterLineEnd? text).map ((), ·)

/-- Reads a comment up to the end of its line. -/
def comment : Reader Unit := do
  char '#'
  let _ ← takeWhile isPlain

/-- Reads what may stand between a statement and the next line: blanks, a comment and a line's end, which
may be missing at the end of the document. -/
def restOfLine : Reader Unit := do
  blanks
  comment <|> pure ()
  lineEnd <|> do
    if (← peek).isSome then failure

/-- What follows blanks, line ends and comments; a comment must end with its line. -/
def afterLayout? (inComment : Bool) : List Char → Option (List Char)
  | [] => if inComment then none else some []
  | c :: rest =>
    if c = '\n' then afterLayout? false rest
    else if c = '\r' ∧ rest.head? = some '\n' then afterLayout? inComment rest
    else if inComment then
      if isPlain c then afterLayout? true rest else none
    else if isBlank c then afterLayout? false rest
    else if c = '#' then afterLayout? true rest
    else some (c :: rest)

/-- Reads blanks, line ends and comments. -/
def layout : Reader Unit := fun text =>
  (afterLayout? false text).map ((), ·)

end Reader

open Reader

/-- How deeply values may stand within values; keys have at most as many parts. -/
def maxDepth : Nat := 79

/-- Whether a character may stand in a key without quotes. -/
def isKeyChar (c : Char) : Bool :=
  c.isAlphanum || c == '_' || c == '-'

/-- Reads one part of a key, with the blanks around it. -/
def keyPart : Reader String := do
  blanks
  let part ← match ← peek with
    | none => failure
    | some c =>
      if c = doubleQuote ∨ c = singleQuote then (lineText? : Reader String)
      else do
        let part ← takeWhile isKeyChar
        if part.isEmpty then failure
        pure (String.ofList part)
  blanks
  return part

/-- A key: the parts before its last dot, and its last part. -/
structure Key where
  path : List String
  last : String
  deriving DecidableEq, Repr

/-- Reads a key. -/
def key : Reader Key := do
  let first ← keyPart
  let others ← many maxDepth (char '.' *> keyPart)
  if maxDepth ≤ others.length then failure
  let parts := first :: others
  return ⟨parts.dropLast, parts.getLastD first⟩

/-- Reads what stands between a pair of items: a comma. -/
def comma : Reader Unit := char ','

/-- Reads the items of an array and its closing bracket. A comma may stand after the last item. -/
def arrayItems (bound : Nat) (value : Reader Toml) : Reader Toml := do
  let item : Reader Toml := layout *> value <* layout
  let items ← (do
    let first ← item
    let others ← many bound (comma *> item)
    comma <|> pure ()
    return first :: others) <|> pure []
  layout
  char ']'
  return .array items

/-- Reads the keys and values of a table within braces and the closing brace. All stands on one line, and
no comma stands after the last. -/
def inlineEntries (bound : Nat) (value : Reader Toml) : Reader Toml := do
  let pair : Reader (Key × Toml) := do
    let key ← key
    char '='
    blanks
    let value ← value
    blanks
    return (key, value)
  let pairs ← (do
    let first ← pair
    let others ← many bound (comma *> pair)
    return first :: others) <|> pure []
  blanks
  char '\x7d'
  let root ← (pairs.foldlM (fun root (key, value) => Entries.assign root [] key.path key.last value)
    ([] : Entries) : Option Entries)
  return .table (Entry.closeAll root)

/-- Reads a given word. -/
def word (letters : List Char) : Reader Unit := fun text =>
  if letters.isPrefixOf text then some ((), text.drop letters.length) else none

/-- Reads a value, within which others may stand `depth` levels deep, at most `bound` and one more on each
level. -/
def value (bound depth : Nat) : Reader Toml := do
  match ← peek with
  | none => failure
  | some c =>
    if c = doubleQuote ∨ c = singleQuote then
      let text ← (text? : Reader String)
      return .string text
    else if c = '[' ∨ c = '\x7b' then
      match depth with
      | 0 => failure
      | depth + 1 =>
        char c
        if c = '[' then arrayItems bound (value bound depth)
        else inlineEntries bound (value bound depth)
    else if c = 't' then
      word "true".toList
      return .boolean true
    else if c = 'f' then
      word "false".toList
      return .boolean false
    else (numeric? : Reader Toml)

/-- A statement of a document. -/
inductive Statement where
  /-- A table begins. -/
  | header (key : Key)
  /-- The next table of a list begins. -/
  | nextHeader (key : Key)
  /-- A key has a value. -/
  | assignment (key : Key) (value : Toml)

/-- Reads a statement with the rest of its line; a line may also hold none. -/
def statement (bound : Nat) : Reader (Option Statement) := do
  blanks
  match ← peek with
  | none => failure
  | some '#' =>
    restOfLine
    return none
  | some '[' =>
    char '['
    if (← peek) = some '[' then
      char '['
      let key ← key
      char ']' *> char ']'
      restOfLine
      return some (.nextHeader key)
    else
      let key ← key
      char ']'
      restOfLine
      return some (.header key)
  | some c =>
    if c = '\n' ∨ c = '\r' then
      lineEnd
      return none
    else
      let key ← key
      char '='
      blanks
      let value ← value bound maxDepth
      restOfLine
      return some (.assignment key value)

/-- The statements of a document, all of which must be read. The number of its characters bounds that of
anything in it. -/
def statements? (text : List Char) : Option (List Statement) := do
  let bound := text.length
  let (lines, rest) ← many bound (statement bound) text
  if rest.all isBlank then some (lines.filterMap id) else none

/-- What statements have made so far, and under which header they stand. -/
structure Draft where
  root : Entries := []
  header : List String := []

/-- Carries out a statement. -/
def Draft.apply (d : Draft) : Statement → Option Draft
  | .header key => do
    return ⟨← d.root.beginTable key.path key.last, key.path ++ [key.last]⟩
  | .nextHeader key => do
    return ⟨← d.root.beginNext key.path key.last, key.path ++ [key.last]⟩
  | .assignment key value => do
    return { d with root := ← d.root.assign d.header key.path key.last value }

/-- The table that a document describes, if it is one. A byte order mark in front is passed over. -/
def parse? (text : List Char) : Option Toml := do
  let text := match text with
    | '\ufeff' :: rest => rest
    | _ => text
  let draft ← (← statements? text).foldlM Draft.apply {}
  return .table (Entry.closeAll draft.root)

end Highlight1C.Toml
