import Highlight1C.Lexer.Basic
import Highlight1C.Lexer.ModuleWords
import Highlight1C.Text.Class

/-!
# The lexer of module code

Outside strings the rules are tried in a fixed order: layout, preprocessor lines, directives, comments,
operators, words, strings and numbers; a character to which none applies is a token of its own. A word
after a dot, or after a word that announces a name, is a name whatever it means elsewhere; layout,
comments, directives and unrecognised characters between the two do not change that.

A string runs from a quote to a quote, over any number of lines, and a doubled quote in it stands for
one.
-/

namespace Highlight1C.ModuleLexer

open Text

/-- Where the lexer is. -/
inductive State where
  /-- Outside strings; the flag says that the next word is a name. -/
  | code (nameFollows : Bool)
  /-- Within a string. -/
  | string
  deriving DecidableEq, Repr

/-- The quote around strings. -/
def quote : Char := '\x22'

/-- The operators of one character. -/
def operatorChars : List Char :=
  ['<', '>', ':', '-', '+', '=', '*', '/', ';', ',', '?', '%', '|', '(', ')', '[', ']', '.']

/-- Whether two characters are an operator together. -/
def isPair (c d : Char) : Bool :=
  (c == '<' && (d == '>' || d == '=')) || (c == '>' && d == '=') || (c == ':' && d == '=')

/-- What belongs to an operator besides its first character. -/
def operatorTail? (c : Char) (cs : List Char) : Option (List Char) :=
  match cs with
  | d :: _ => if isPair c d then some [d] else if operatorChars.contains c then some [] else none
  | [] => if operatorChars.contains c then some [] else none

/-- A point with digits after it. -/
def fraction? (text : List Char) : Option (List Char) :=
  match text with
  | '.' :: rest =>
    let digits := rest.takeWhile Char.isDigit
    if digits.isEmpty then none else some ('.' :: digits)
  | _ => none

/-- The move on a digit outside strings. -/
def numberMove (c : Char) (cs : List Char) : Move State :=
  let digits := cs.takeWhile Char.isDigit
  match fraction? (cs.drop digits.length) with
  | some fraction => .token .float c (digits ++ fraction) (.code false)
  | none => .token .integer c digits (.code false)

/-- The move outside strings. -/
def codeMove (nameFollows : Bool) (c : Char) (cs : List Char) : Move State :=
  if isSpace c then .token .space c (cs.takeWhile isSpace) (.code nameFollows)
  else if c = '#' then .token .preprocessor c (restOfLine cs) (.code nameFollows)
  else if c = '&' ∧ restOfLine cs ≠ [] then .token .directive c (restOfLine cs) (.code nameFollows)
  else if c = '/' ∧ cs.head? = some '/' then .token .comment c (restOfLine cs) (.code nameFollows)
  else match operatorTail? c cs with
  | some more => .token .operator c more (.code (c == '.'))
  | none =>
    if isNameStart c ∨ c = '&' then
      let more := cs.takeWhile isWordChar
      let kind := if nameFollows then .ident else ModuleWords.classify (c :: more)
      .token kind c more (.code (ModuleWords.announcesName (c :: more)))
    else if c = quote then
      { writes := [.beginGroup, .token ⟨.delimiter, [c]⟩], further := 0, next := .string }
    else if c.isDigit then numberMove c cs
    else .token .error c [] (.code nameFollows)

/-- The move within a string; none on a character that is neither content nor a quote. -/
def stringMove? (c : Char) (cs : List Char) : Option (Move State) :=
  let isContent (d : Char) : Bool := d != quote
  if isContent c then some (.token .content c (cs.takeWhile isContent) .string)
  else if c = quote ∧ cs.head? = some quote then some (.token .char c [quote] .string)
  else if c = quote then
    some { writes := [.token ⟨.delimiter, [c]⟩, .endGroup], further := 0, next := .code false }
  else none

/-- The lexer of module code. -/
def lexer : Lexer State where
  start := .code false
  step
    | .code nameFollows, c, cs => some (codeMove nameFollows c cs)
    | .string, c, cs => stringMove? c cs
  flush _ := []
  mode
    | .code _ => .initial
    | .string => .inString

end Highlight1C.ModuleLexer
