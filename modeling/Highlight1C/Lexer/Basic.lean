import Highlight1C.Token.Stream

/-!
# Lexers

A lexer reads a text from left to right. At each step it looks at the next character and what follows,
and decides on a move: what it writes, how many characters it takes besides the next one, and in
which state it goes on. Every move takes a character, so every run ends.

* `Lexer.run`: all that a lexer writes about a text, and where it stopped;
* `Lexer.Reaches`: what a run has written, where it is and what is left, before each of its moves.
-/

namespace Highlight1C

/-- Whether a lexer is within a string. -/
inductive Mode where
  | initial
  | inString
  deriving DecidableEq, Repr

/-- The name of a mode. -/
def Mode.name : Mode → String
  | .initial => "initial"
  | .inString => "in_string"

/-- What a lexer does with the next character. -/
structure Move (σ : Type) where
  /-- What is written. -/
  writes : List (Piece Lexeme)
  /-- How many characters are taken besides the next one. -/
  further : Nat
  /-- The state in which reading goes on. -/
  next : σ
  deriving DecidableEq, Repr

/-- Writes one token, made of the next character and `more`, with which the rest begins. -/
def Move.token {σ : Type} (kind : TokenKind) (c : Char) (more : List Char) (next : σ) : Move σ where
  writes := [.token ⟨kind, c :: more⟩]
  further := more.length
  next := next

/-- A way to read a text, with states `σ`. -/
structure Lexer (σ : Type) where
  /-- The state in which reading begins. -/
  start : σ
  /-- The move on a character and what follows it; none when no rule applies. -/
  step : σ → Char → List Char → Option (Move σ)
  /-- What is still to be written when the text ends. -/
  flush : σ → List (Piece Lexeme)
  /-- Whether a state is within a string. -/
  mode : σ → Mode

/-- What a run comes to. -/
structure Lexing (σ : Type) where
  /-- All that was written. -/
  pieces : List (Piece Lexeme)
  /-- The state at the end. -/
  state : σ
  /-- What could not be read; empty unless no rule applied. -/
  rest : List Char

/-- What a lexer makes of a text, whatever its states are. -/
structure Reading where
  /-- All that was written. -/
  pieces : List (Piece Lexeme)
  /-- Whether the text ended within a string. -/
  mode : Mode
  /-- What could not be read; empty unless no rule applied. -/
  rest : List Char

namespace Lexer

variable {σ : Type}

/-- Reads on from a state, with what has been written so far, last piece first. -/
def runFrom (lx : Lexer σ) (written : List (Piece Lexeme)) (state : σ) : List Char → Lexing σ
  | [] => ⟨written.reverse ++ lx.flush state, state, []⟩
  | c :: cs =>
    match lx.step state c cs with
    | none => ⟨written.reverse, state, c :: cs⟩
    | some move => lx.runFrom (move.writes.reverse ++ written) move.next (cs.drop move.further)
termination_by text => text.length
decreasing_by
  simp only [List.length_drop, List.length_cons]
  omega

/-- Reads a text. -/
def run (lx : Lexer σ) (text : List Char) : Lexing σ :=
  lx.runFrom [] lx.start text

/-- Reads a text, and forgets all of the last state but its mode. -/
def read (lx : Lexer σ) (text : List Char) : Reading :=
  let lexing := lx.run text
  ⟨lexing.pieces, lx.mode lexing.state, lexing.rest⟩

/-- The states that a run on a text comes to, each with what has been written by then, first piece
first, and the text that is left there. -/
inductive Reaches (lx : Lexer σ) (text : List Char) :
    List (Piece Lexeme) → σ → List Char → Prop where
  /-- Reading begins in the first state, with all of the text. -/
  | start : Reaches lx text [] lx.start text
  /-- Each move leads on. -/
  | move {written : List (Piece Lexeme)} {state : σ} {c : Char} {cs : List Char} {move : Move σ} :
    Reaches lx text written state (c :: cs) → lx.step state c cs = some move →
      Reaches lx text (written ++ move.writes) move.next (cs.drop move.further)

theorem runFrom_nil (lx : Lexer σ) (written : List (Piece Lexeme)) (state : σ) :
    lx.runFrom written state [] = ⟨written.reverse ++ lx.flush state, state, []⟩ := by
  rw [runFrom]

theorem runFrom_cons_of_some (lx : Lexer σ) (written : List (Piece Lexeme)) {state : σ} {c : Char}
    {cs : List Char} {move : Move σ} (h : lx.step state c cs = some move) :
    lx.runFrom written state (c :: cs) =
      lx.runFrom (move.writes.reverse ++ written) move.next (cs.drop move.further) := by
  rw [runFrom, h]

/-- What was written before stays in front of what is written from there on. -/
theorem pieces_runFrom (lx : Lexer σ) (written : List (Piece Lexeme)) (state : σ)
    (text : List Char) :
    (lx.runFrom written state text).pieces =
      written.reverse ++ (lx.runFrom [] state text).pieces := by
  induction h : text.length using Nat.strongRecOn generalizing written state text with
  | _ n ih =>
    cases text with
    | nil => simp [runFrom]
    | cons c cs =>
      rw [runFrom, runFrom]
      cases hs : lx.step state c cs with
      | none => simp
      | some move =>
        have hlt : (cs.drop move.further).length < n := by
          rw [← h, List.length_drop, List.length_cons]
          omega
        simp only []
        rw [ih _ hlt _ _ _ rfl, ih _ hlt (move.writes.reverse ++ []) _ _ rfl]
        simp

end Lexer

end Highlight1C
