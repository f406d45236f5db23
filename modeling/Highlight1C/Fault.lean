/-!
# Broken contracts

Some operations on positions, spans and cuts of a text have a contract that their caller must keep:
a counter stays within its width, a cut falls between two characters, a span does not run backwards,
a token is not empty, a condition that it is given has an answer. `Fault` names the ways to break it.
An operation that finds its contract broken stops there. Some of these checks are made in a debug
build only, which is the one described here.
-/

namespace Highlight1C

/-- The ways in which an operation's contract can be broken. -/
inductive Fault where
  /-- A counter would leave its width, or fall below zero. -/
  | overflow
  /-- A cut lies outside the text or inside a character. -/
  | badCut
  /-- A span would start after its end. -/
  | reversedSpan
  /-- A token would have no text. -/
  | emptyToken
  /-- A condition has no answer about a character that it is asked about. -/
  | noAnswer
  deriving DecidableEq, Repr

/-- Work that comes to its end has come to the end of its first part. -/
theorem bind_eq_ok {ε α β : Type} {x : Except ε α} {f : α → Except ε β} {b : β}
    (h : x >>= f = .ok b) : ∃ a, x = .ok a ∧ f a = .ok b := by
  cases x with
  | error _ => cases h
  | ok a => exact ⟨a, rfl, h⟩

end Highlight1C
