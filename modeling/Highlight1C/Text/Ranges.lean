/-!
# Sets of characters given by ranges

A set of characters that a standard fixes is a list of ranges of code points, in rising order and
apart from one another, so that a search can stop at the first range that starts above its character.
-/

namespace Highlight1C.Text

/-- Ranges of code points, each given by its first and its last member. -/
abbrev Ranges := List (Nat × Nat)

/-- Whether a code point lies in one of the ranges. -/
def Ranges.contains (n : Nat) : Ranges → Bool
  | [] => false
  | (first, last) :: rest =>
    if n < first then false else if n ≤ last then true else Ranges.contains n rest

end Highlight1C.Text
