import Highlight1C.Lexer.Basic
import Highlight1C.Lexer.QueryWords
import Highlight1C.Text.Class

/-!
# The lexer of queries

Outside strings the rules are tried in a fixed order: layout, comments, operators, strings, words,
numbers and the constant `\N`; a character to which none applies is a token of its own. A dot directly
before a letter makes the next word a name.

A string runs from a quote to the same quote, of which there are three kinds; a letter or a character
set's name may stand before it. Within it a doubled quote and the other two quotes are content, and a
backslash begins an escape. Content is held back until an escape or the end of the string, so that it
becomes one token.
-/

namespace Highlight1C.QueryLexer

open Text

/-- Where the lexer is. -/
inductive State where
  /-- Outside strings; the flag says that the next word is a name. -/
  | code (nameExpected : Bool)
  /-- Within a string, with the flag for the next word outside, the quote that ends the string, and the
  content held back, last character first. -/
  | string (nameExpected : Bool) (quote : Char) (held : List Char)
  deriving DecidableEq, Repr

/-- The quotes around strings. -/
def quotes : List Char := ['\x60', '\x22', '\x27']

/-- Whether a character is a quote. -/
def isQuote (c : Char) : Bool := quotes.contains c

/-- The operators that are always operators. -/
def operatorChars : List Char :=
  ['*', '/', '=', '<', '>', ':', ';', ',', '!', '&', '^', '|', '(', ')', '[', ']', '\x7b', '\x7d',
   '~', '%']

/-- The operators that belong to a number when a digit follows. -/
def numericOperatorChars : List Char := ['-', '+', '.']

/-- Whether a character is an operator in front of the given rest. -/
def isOperator (c : Char) (cs : List Char) : Bool :=
  operatorChars.contains c ||
    (numericOperatorChars.contains c && !cs.head?.any Char.isDigit)

/-- What belongs to a comment up to the end of its line. -/
def lineComment? (c : Char) (cs : List Char) : Option (List Char) :=
  if c = '#' ∨ (c = '/' ∧ cs.head? = some '/') then some (restOfLine cs) else none

/-- A text up to and including the first `*/`, or all of it. What has been passed is in `passed`, last
character first. -/
def throughCloseFrom (passed : List Char) : List Char → List Char
  | '*' :: '/' :: _ => ('/' :: '*' :: passed).reverse
  | c :: cs => throughCloseFrom (c :: passed) cs
  | [] => passed.reverse

/-- A text up to and including the first `*/`, or all of it. -/
def throughClose (text : List Char) : List Char :=
  throughCloseFrom [] text

/-- What belongs to a comment between `/*` and `*/`, and what it is: one that begins with `/*!` is a
directive. -/
def blockComment? (c : Char) (cs : List Char) : Option (TokenKind × List Char) :=
  if c ≠ '/' then none
  else match cs with
  | '*' :: '!' :: body => some (.directive, '*' :: '!' :: throughClose body)
  | '*' :: body => some (.comment, '*' :: throughClose body)
  | _ => none

/-- The quote that a text begins with. -/
def quoteAt? (text : List Char) : Option Char :=
  text.head?.filter isQuote

/-- The letters that may stand before a string. -/
def modifierLetters : List Char := ['x', 'X', 'n', 'N', 'b', 'B']

/-- The beginning of a string: what stands before its quote, and the quote. -/
def stringOpening? (c : Char) (cs : List Char) : Option (List Char × Char) :=
  if isQuote c then some ([], c)
  else if modifierLetters.contains c then (quoteAt? cs).map fun q => ([c], q)
  else if c = '_' then
    let name := cs.takeWhile isAsciiWordChar
    if name.isEmpty then none
    else (quoteAt? (cs.drop name.length)).map fun q => (c :: name, q)
  else none

/-- What belongs to a word besides its first character. A word may begin with `@`. -/
def wordTail? (c : Char) (cs : List Char) : Option (List Char) :=
  if c = '@' then
    match cs with
    | d :: ds => if isNameStart d then some (d :: ds.takeWhile isWordChar) else none
    | [] => none
  else if isNameStart c then some (cs.takeWhile isWordChar)
  else none

/-- What belongs to a hexadecimal number besides its first digit. -/
def hexTail? (c : Char) (cs : List Char) : Option (List Char) :=
  match cs with
  | x :: ds =>
    if c = '0' ∧ (x = 'x' ∨ x = 'X') then
      let digits := ds.takeWhile isHexDigit
      if digits = [] then none else some (x :: digits)
    else none
  | [] => none

/-- The characters that make a number a fraction. -/
def fractionMarks : List Char := ['.', 'e', 'E', 'f', 'F']

/-- What belongs to an octal number besides its first digit. -/
def octalTail? (c : Char) (cs : List Char) : Option (List Char) :=
  if c = '0' then
    let digits := cs.takeWhile isOctalDigit
    if digits = [] ∨ (cs.drop digits.length).head?.any ('8' :: '9' :: fractionMarks).contains then none
    else some digits
  else none

/-- An exponent: its letter, perhaps a sign, and digits. -/
def exponent? (text : List Char) : Option (List Char) :=
  match text with
  | e :: rest =>
    let sign := (rest.take 1).filter isSign
    let digits := (rest.drop sign.length).takeWhile Char.isDigit
    if (e = 'e' ∨ e = 'E') ∧ digits ≠ [] then some (e :: sign ++ digits) else none
  | [] => none

/-- A fraction that begins with the digits `whole`, before `rest`: the digits with a closing `f`, or with
a point and digits and perhaps an exponent, or with an exponent. There may be no digits before the
point. -/
def fraction? (whole rest : List Char) : Option (List Char) :=
  match rest with
  | '.' :: after =>
    let digits := after.takeWhile Char.isDigit
    if digits = [] then none
    else some (whole ++ '.' :: digits ++ (exponent? (after.drop digits.length)).getD [])
  | f :: _ =>
    if whole = [] then none
    else if f = 'f' ∨ f = 'F' then some (whole ++ [f])
    else (exponent? rest).map (whole ++ ·)
  | [] => none

/-- A decimal number without a sign: a whole number, unless a mark of a fraction follows its digits, or
else a fraction. -/
def decimal? (text : List Char) : Option (TokenKind × List Char) :=
  let whole := text.takeWhile Char.isDigit
  let rest := text.drop whole.length
  if whole ≠ [] ∧ ¬ rest.head?.any fractionMarks.contains then some (.integer, whole)
  else (fraction? whole rest).map (.float, ·)

/-- What a decimal number is that begins with a character, perhaps a sign, and what belongs to it besides
that character. -/
def decimalTail? (c : Char) (cs : List Char) : Option (TokenKind × List Char) :=
  if isSign c then decimal? cs
  else (decimal? (c :: cs)).map fun (kind, number) => (kind, number.tail)

/-- What belongs to an escape besides its backslash: `u` with four hexadecimal digits, `U` with eight,
`x` with one or two, one to three octal digits, or any one character. -/
def escapeTail? : List Char → Option (List Char)
  | [] => none
  | c :: cs =>
    let hexDigits (most : Nat) := (cs.take most).takeWhile isHexDigit
    if c = 'u' ∧ (hexDigits 4).length = 4 then some (c :: hexDigits 4)
    else if c = 'U' ∧ (hexDigits 8).length = 8 then some (c :: hexDigits 8)
    else if c = 'x' ∧ hexDigits 2 ≠ [] then some (c :: hexDigits 2)
    else if isOctalDigit c then some (c :: (cs.take 2).takeWhile isOctalDigit)
    else some [c]

/-- The kind of a word in its place. -/
def wordKind (nameExpected : Bool) (word : List Char) : TokenKind :=
  if nameExpected then .ident
  else if word.head? = some '@' then .variable
  else QueryWords.classify word

/-- The move on a string's beginning. -/
def openingMove (nameExpected : Bool) (modifier : List Char) (quote : Char) : Move State where
  writes :=
    .beginGroup :: (if modifier = [] then [] else [.token ⟨.modifier, modifier⟩]) ++
      [.token ⟨.delimiter, [quote]⟩]
  further := modifier.length
  next := .string nameExpected quote []

/-- The move on a number, on the constant `\N` or on a character that nothing begins with. -/
def numberMove (nameExpected : Bool) (c : Char) (cs : List Char) : Move State :=
  match hexTail? c cs with
  | some more => .token .hex c more (.code nameExpected)
  | none =>
  match octalTail? c cs with
  | some more => .token .octal c more (.code nameExpected)
  | none =>
  match decimalTail? c cs with
  | some (kind, more) => .token kind c more (.code nameExpected)
  | none =>
    if c = '\\' ∧ cs.head? = some 'N' then .token .predefinedConstant c ['N'] (.code nameExpected)
    else .token .error c [] (.code nameExpected)

/-- The move outside strings. -/
def codeMove (nameExpected : Bool) (c : Char) (cs : List Char) : Move State :=
  if isSpace c then .token .space c (cs.takeWhile isSpace) (.code nameExpected)
  else if c = '\\' ∧ cs.head? = some '\n' then .token .space c ['\n'] (.code nameExpected)
  else match lineComment? c cs with
  | some more => .token .comment c more (.code nameExpected)
  | none =>
  match blockComment? c cs with
  | some (kind, more) => .token kind c more (.code nameExpected)
  | none =>
    if isOperator c cs then
      .token .operator c [] (.code (nameExpected || (c == '.' && cs.head?.any isNameStart)))
    else match stringOpening? c cs with
    | some (modifier, quote) => openingMove nameExpected modifier quote
    | none =>
    match wordTail? c cs with
    | some more => .token (wordKind nameExpected (c :: more)) c more (.code false)
    | none => numberMove nameExpected c cs

/-- The content held back, as a token. -/
def release (held : List Char) : List (Piece Lexeme) :=
  if held = [] then [] else [.token ⟨.content, held.reverse⟩]

/-- The move within a string; none on a backslash or quote to which no rule applies. -/
def stringMove? (nameExpected : Bool) (quote : Char) (held : List Char) (c : Char)
    (cs : List Char) : Option (Move State) :=
  let isPlain (d : Char) : Bool := d != '\\' && !isQuote d
  if isPlain c then
    let run := cs.takeWhile isPlain
    some ⟨[], run.length, .string nameExpected quote (run.reverse ++ c :: held)⟩
  else if c = quote then
    if cs.head? = some quote then some ⟨[], 1, .string nameExpected quote (quote :: c :: held)⟩
    else some ⟨release held ++ [.token ⟨.delimiter, [c]⟩, .endGroup], 0, .code nameExpected⟩
  else if isQuote c then some ⟨[], 0, .string nameExpected quote (c :: held)⟩
  else match escapeTail? cs with
  | some more =>
    if c = '\\' then
      some ⟨release held ++ [.token ⟨.char, c :: more⟩], more.length,
        .string nameExpected quote []⟩
    else none
  | none =>
    if c = '\\' then
      some ⟨release held ++ [.token ⟨.error, [c]⟩, .endGroup], 0, .code nameExpected⟩
    else none

/-- The lexer of queries. -/
def lexer : Lexer State where
  start := .code false
  step
    | .code nameExpected, c, cs => some (codeMove nameExpected c cs)
    | .string nameExpected quote held, c, cs => stringMove? nameExpected quote held c cs
  flush
    | .code _ => []
    | .string _ _ held => release held
  mode
    | .code _ => .initial
    | .string _ _ _ => .inString

end Highlight1C.QueryLexer
