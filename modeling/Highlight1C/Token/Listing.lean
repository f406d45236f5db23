import Highlight1C.Token.Stream

/-!
# Listings of streams

The listing is the compact form in which a stream is read by people and compared by tests: layout
stands as it is, every other token as `kind(text)`, and a string as `string<…>`. Within the
parentheses a backslash goes before each closing parenthesis and each backslash.
-/

namespace Highlight1C

/-- A text with a backslash before each closing parenthesis and each backslash. -/
def escapeListed (text : List Char) : List Char :=
  text.flatMap fun c => if c == ')' || c == '\\' then ['\\', c] else [c]

/-- How a lexeme is listed. -/
def Lexeme.listed (l : Lexeme) : List Char :=
  if l.kind = .space then l.text
  else l.kind.name.toList ++ '(' :: escapeListed l.text ++ [')']

/-- How a piece is listed. -/
def Piece.listed : Piece Token → List Char
  | .token t => t.toLexeme.listed
  | .beginGroup => groupName.toList ++ ['<']
  | .endGroup => ['>']

/-- The listing of a stream. -/
def TokenStream.listing (s : TokenStream) : List Char :=
  s.pieces.flatMap Piece.listed

end Highlight1C
