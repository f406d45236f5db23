import Highlight1C.Text.HiddenTable

/-!
# Characters and texts in quotes

How a character is written in a message, so that one can tell what it is: the usual escapes for null,
tab, line feed, carriage return and the backslash, a backslash before a quote, and the code point in
hexadecimal for a hidden character.
-/

namespace Highlight1C.Text

/-- A code point in hexadecimal, as `\u{…}`. -/
def codeEscape (c : Char) : String :=
  "\\u\x7b" ++ String.ofList (Nat.toDigits 16 c.toNat) ++ "\x7d"

/-- A character written so that it can be told by sight; quotes of the kinds in `quotes` get a
backslash. -/
def escapeChar (quotes : List Char) (c : Char) : String :=
  if c = '\x00' then "\\0"
  else if c = '\t' then "\\t"
  else if c = '\r' then "\\r"
  else if c = '\n' then "\\n"
  else if c = '\\' then "\\\\"
  else if quotes.contains c then "\\" ++ c.toString
  else if isHidden c then codeEscape c
  else c.toString

/-- A text without quotes around it, in which both kinds of quotes are escaped. -/
def escapeBare (text : List Char) : String :=
  String.join (text.map (escapeChar ['\x22', '\x27']))

/-- A character in single quotes. -/
def quoteChar (c : Char) : String :=
  "'" ++ escapeChar ['\x27'] c ++ "'"

/-- A text in double quotes. -/
def quoteText (text : List Char) : String :=
  "\"" ++ String.join (text.map (escapeChar ['\x22'])) ++ "\""

end Highlight1C.Text
