/-!
# Kinds of tokens

What a token is, as far as highlighting goes. Both languages share one list of kinds; its order is the
order in which counts by kind are reported.
-/

namespace Highlight1C

/-- What a token is. -/
inductive TokenKind where
  | space
  | comment
  | preprocessor
  | directive
  | operator
  | ident
  | keyword
  | type
  /-- A word that begins or joins the clauses of a query. -/
  | clause
  | predefined
  | predefinedType
  | predefinedConstant
  | integer
  | float
  | hex
  | octal
  | delimiter
  | content
  | char
  | modifier
  | variable
  | error
  deriving DecidableEq, Repr

namespace TokenKind

/-- Every kind, in the order of reports. -/
def all : List TokenKind :=
  [.space, .comment, .preprocessor, .directive, .operator, .ident, .keyword, .type, .clause,
   .predefined, .predefinedType, .predefinedConstant, .integer, .float, .hex, .octal, .delimiter,
   .content, .char, .modifier, .variable, .error]

/-- The place of a kind in the order of reports. -/
def rank (k : TokenKind) : Nat :=
  k.ctorIdx

/-- The name under which a kind is written. -/
def name : TokenKind → String
  | .space => "space"
  | .comment => "comment"
  | .preprocessor => "preprocessor"
  | .directive => "directive"
  | .operator => "operator"
  | .ident => "ident"
  | .keyword => "keyword"
  | .type => "type"
  | .clause => "class"
  | .predefined => "predefined"
  | .predefinedType => "predefined_type"
  | .predefinedConstant => "predefined_constant"
  | .integer => "integer"
  | .float => "float"
  | .hex => "hex"
  | .octal => "octal"
  | .delimiter => "delimiter"
  | .content => "content"
  | .char => "char"
  | .modifier => "modifier"
  | .variable => "variable"
  | .error => "error"

/-- The kind with the given name. -/
def ofName? (name : String) : Option TokenKind :=
  all.find? (·.name == name)

/-- What is said of a name that no kind has. -/
def unknownMessage (name : String) : String :=
  s!"Unknown token kind: {name}"

/-- Everything but layout and comments is significant. -/
def isSignificant : TokenKind → Bool
  | .space | .comment => false
  | _ => true

/-- The kinds that occur only within a string. -/
def isStringPart : TokenKind → Bool
  | .delimiter | .content | .char | .modifier => true
  | _ => false

/-- Reading a kind's name gives the kind back. -/
theorem ofName?_name (k : TokenKind) : ofName? k.name = some k := by
  cases k <;> decide

end TokenKind

end Highlight1C
