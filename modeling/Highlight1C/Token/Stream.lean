import Highlight1C.Config.Limits
import Highlight1C.Position
import Highlight1C.Token.Kind

/-!
# Token streams

A lexeme is a stretch of text with its kind; a token is a lexeme in its place. A stream is a list of
pieces: tokens, and markers that open and close the group of tokens of one string literal. The texts
of its tokens, put together, are the source again.
-/

namespace Highlight1C

/-- A stretch of text and what it is. -/
structure Lexeme where
  kind : TokenKind
  text : List Char
  deriving DecidableEq, Repr

/-- A lexeme is shown as its kind with the text in parentheses. -/
def Lexeme.label (l : Lexeme) : String :=
  s!"{l.kind.name}({String.ofList l.text})"

/-- A lexeme in its place. -/
structure Token extends Lexeme where
  span : Span
  deriving DecidableEq, Repr

/-- A token, or a marker around the tokens of a string literal. -/
inductive Piece (τ : Type) where
  /-- A token. -/
  | token (t : τ)
  /-- A string begins. -/
  | beginGroup
  /-- A string ends. -/
  | endGroup
  deriving DecidableEq, Repr

/-- The token of a piece that is one. -/
def Piece.token? {τ : Type} : Piece τ → Option τ
  | .token t => some t
  | .beginGroup | .endGroup => none

/-- The name of the only kind of group. -/
def groupName : String := "string"

/-- What a scan writes. -/
structure TokenStream where
  pieces : List (Piece Token)
  deriving DecidableEq, Repr

namespace TokenStream

/-- The stream with nothing in it. -/
def empty : TokenStream := ⟨[]⟩

/-- Bytes of room that a piece takes. -/
def pieceBytes : Nat := 64

/-- Room of this many bytes, 2⁶³, cannot be had. -/
def roomBound : Nat := 0x8000000000000000

/-- How many pieces room is made for before a source of this many bytes is scanned. -/
def roomFor (sourceBytes : Nat) : Except Fault Nat :=
  let room := sourceBytes / Limits.current.tokenCapacityDivisor + 1
  if room * pieceBytes < roomBound then .ok room else .error .overflow

/-- The tokens in order, without the markers. -/
def tokens (s : TokenStream) : List Token :=
  s.pieces.filterMap Piece.token?

/-- The tokens that are neither layout nor comments. -/
def significant (s : TokenStream) : List Token :=
  s.tokens.filter (·.kind.isSignificant)

/-- The texts of all tokens, one after the other. -/
def text (s : TokenStream) : List Char :=
  s.tokens.flatMap (·.text)

/-- The number of tokens. -/
def length (s : TokenStream) : Nat :=
  s.tokens.length

/-- The number of tokens of a kind. -/
def countKind (s : TokenStream) (k : TokenKind) : Nat :=
  s.tokens.countP (·.kind == k)

/-- The number of strings, those left open included. -/
def groupCount (s : TokenStream) : Nat :=
  s.pieces.countP fun
    | .beginGroup => true
    | _ => false

/-- The tokens that no rule recognised. -/
def errors (s : TokenStream) : List Token :=
  s.tokens.filter (·.kind == .error)

/-- The stream with one more piece at its end. -/
def push (s : TokenStream) (p : Piece Token) : TokenStream :=
  ⟨s.pieces ++ [p]⟩

@[simp] theorem tokens_push_token (s : TokenStream) (t : Token) :
    (s.push (.token t)).tokens = s.tokens ++ [t] := by
  simp [push, tokens, Piece.token?]

end TokenStream

end Highlight1C
