/-!
# Classes of characters

The classes on which both lexers rest. Letters are those of the English and the Russian alphabet;
every other class has members below U+0080 only.
-/

namespace Highlight1C.Text

/-- Layout: blank, tab, line feed, vertical tab, form feed and carriage return. -/
def isSpace (c : Char) : Bool :=
  c == ' ' || c == '\t' || c == '\n' || c == '\x0b' || c == '\x0c' || c == '\r'

/-- A letter of a word: Latin `A`–`Z` and `a`–`z`, Russian `А`–`я` with `Ё` and `ё`. -/
def isLetter (c : Char) : Bool :=
  c.isAlpha || ('А' ≤ c && c ≤ 'я') || c == 'Ё' || c == 'ё'

/-- What may begin a name: a letter or an underscore. -/
def isNameStart (c : Char) : Bool :=
  isLetter c || c == '_'

/-- What may continue a word: a letter, an underscore or a digit. -/
def isWordChar (c : Char) : Bool :=
  isLetter c || c == '_' || c.isDigit

/-- A digit of a hexadecimal number, in either case. -/
def isHexDigit (c : Char) : Bool :=
  c.isDigit || ('a' ≤ c && c ≤ 'f') || ('A' ≤ c && c ≤ 'F')

/-- A digit of an octal number. -/
def isOctalDigit (c : Char) : Bool :=
  '0' ≤ c && c ≤ '7'

/-- A letter, digit or underscore below U+0080. -/
def isAsciiWordChar (c : Char) : Bool :=
  c.isAlphanum || c == '_'

/-- A sign before a number. -/
def isSign (c : Char) : Bool :=
  c == '-' || c == '+'

/-- The part of a text before its first line feed. -/
def restOfLine (text : List Char) : List Char :=
  text.takeWhile (· != '\n')

/-- No line feed stands in the rest of a line. -/
theorem not_mem_restOfLine (text : List Char) : '\n' ∉ restOfLine text := by
  unfold restOfLine
  induction text with
  | nil => simp
  | cons c cs ih =>
    by_cases h : c = '\n'
    · simp [h]
    · simpa [h] using ⟨Ne.symm h, ih⟩

end Highlight1C.Text
