/-!
# Binary floating point of 53 digits

The nearest number to a fraction among those with 53 binary digits, a tie going to the even neighbour.
Fractions are pairs of a numerator and a denominator; those that occur here are neither so large nor so
small that the exponent would matter.
-/

namespace Highlight1C.Number

/-- A numerator over a positive denominator. -/
structure Fraction where
  num : Nat
  den : Nat
  deriving DecidableEq, Repr

/-- A quotient rounded to the nearest whole number, a tie going to the even one. -/
def roundDiv (num den : Nat) : Nat :=
  let whole := num / den
  let twice := 2 * (num % den)
  if twice < den then whole
  else if den < twice then whole + 1
  else whole + whole % 2

/-- A fraction times a power of two. -/
def Fraction.scale (q : Fraction) (up down : Nat) : Fraction :=
  ⟨q.num * Nat.pow 2 up, q.den * Nat.pow 2 down⟩

/-- The powers of two `up - down` that bring a positive fraction to 2⁵² or above and below 2⁵³. -/
def Fraction.normalizer (q : Fraction) : Nat × Nat :=
  let up := 53 + q.den.log2 - q.num.log2
  let down := q.num.log2 - (53 + q.den.log2)
  let scaled := q.scale up down
  if scaled.num / scaled.den < Nat.pow 2 53 then (up, down)
  else if up = 0 then (0, down + 1) else (up - 1, down)

/-- The nearest number of 53 binary digits. -/
def Fraction.nearest (q : Fraction) : Fraction :=
  if q.num = 0 then ⟨0, 1⟩
  else
    let (up, down) := q.normalizer
    let scaled := q.scale up down
    ⟨roundDiv scaled.num scaled.den * Nat.pow 2 down, Nat.pow 2 up⟩

end Highlight1C.Number
