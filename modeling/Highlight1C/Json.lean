/-!
# JSON values and how they are laid out

Values are written in one of two layouts. `Json.compact` leaves out all blanks; `Json.pretty` puts each
item and each field on a line of its own, two blanks further in, and writes an empty array or object
as a pair of brackets. Fields keep the order in which they are given.
-/

namespace Highlight1C

/-- A JSON value. -/
inductive Json where
  | null
  | bool (b : Bool)
  /-- A number, as it is written. -/
  | number (digits : String)
  | string (text : String)
  | array (items : List Json)
  | object (fields : List (String × Json))
  deriving Inhabited

namespace Json

/-- A natural number. -/
def nat (n : Nat) : Json := .number (toString n)

/-- A text, or null. -/
def ofString? : Option String → Json
  | some s => .string s
  | none => .null

/-- A code unit below U+0020 that has no short escape. -/
def controlEscape (c : Char) : String :=
  let digits := Nat.toDigits 16 c.toNat
  "\\u" ++ ("".pushn '0' (4 - digits.length)) ++ String.ofList digits

/-- A character within a JSON string: quotes, backslashes and controls are escaped. -/
def escapeChar (c : Char) : String :=
  if c = '\x22' then "\\\""
  else if c = '\\' then "\\\\"
  else if c = '\x08' then "\\b"
  else if c = '\x0c' then "\\f"
  else if c = '\n' then "\\n"
  else if c = '\r' then "\\r"
  else if c = '\t' then "\\t"
  else if c.toNat < 0x20 then controlEscape c
  else c.toString

/-- A text as a JSON string. -/
def quote (text : String) : String :=
  (text.toList.foldl (fun out c => out ++ escapeChar c) "\"") ++ "\""

/-- A new line, set in by two blanks for each level. -/
def newLine (level : Nat) : String :=
  "\n".pushn ' ' (2 * level)

mutual

/-- Appends a value in the compact layout. -/
def appendCompact (out : String) : Json → String
  | .null => out ++ "null"
  | .bool b => out ++ (if b then "true" else "false")
  | .number digits => out ++ digits
  | .string text => out ++ quote text
  | .array items => appendCompactItems (out ++ "[") "" items ++ "]"
  | .object fields => appendCompactFields (out ++ "\x7b") "" fields ++ "\x7d"

/-- Appends items, each after `separator` or, from the second on, a comma. -/
def appendCompactItems (out separator : String) : List Json → String
  | [] => out
  | item :: rest => appendCompactItems (appendCompact (out ++ separator) item) "," rest

/-- Appends fields, each after `separator` or, from the second on, a comma. -/
def appendCompactFields (out separator : String) : List (String × Json) → String
  | [] => out
  | (key, value) :: rest =>
    appendCompactFields (appendCompact (out ++ separator ++ quote key ++ ":") value) "," rest

end

mutual

/-- Appends a value in the pretty layout, at a level. -/
def appendPretty (out : String) (level : Nat) : Json → String
  | .null => out ++ "null"
  | .bool b => out ++ (if b then "true" else "false")
  | .number digits => out ++ digits
  | .string text => out ++ quote text
  | .array [] => out ++ "[]"
  | .array (item :: rest) =>
    appendPrettyItems (appendPretty (out ++ "[" ++ newLine (level + 1)) (level + 1) item) (level + 1)
      rest ++ newLine level ++ "]"
  | .object [] => out ++ "\x7b\x7d"
  | .object ((key, value) :: rest) =>
    appendPrettyFields
      (appendPretty (out ++ "\x7b" ++ newLine (level + 1) ++ quote key ++ ": ") (level + 1) value)
      (level + 1) rest ++ newLine level ++ "\x7d"

/-- Appends the items after the first. -/
def appendPrettyItems (out : String) (level : Nat) : List Json → String
  | [] => out
  | item :: rest =>
    appendPrettyItems (appendPretty (out ++ "," ++ newLine level) level item) level rest

/-- Appends the fields after the first. -/
def appendPrettyFields (out : String) (level : Nat) : List (String × Json) → String
  | [] => out
  | (key, value) :: rest =>
    appendPrettyFields
      (appendPretty (out ++ "," ++ newLine level ++ quote key ++ ": ") level value) level rest

end

/-- A value in the compact layout. -/
def compact (j : Json) : String :=
  appendCompact "" j

/-- A value in the pretty layout. -/
def pretty (j : Json) : String :=
  appendPretty "" 0 j

end Json

end Highlight1C
