import Highlight1C.Number.Binary

/-!
# Numbers with a fixed number of places

A fraction written with a given number of decimal places, rounded to the nearest, a tie going to the
even digit.
-/

namespace Highlight1C.Number

/-- A fraction with `places` decimal places. -/
def Fraction.fixed (q : Fraction) (places : Nat) : String :=
  let scaled := toString (roundDiv (q.num * Nat.pow 10 places) q.den)
  let digits := ("".pushn '0' (places + 1 - scaled.length) ++ scaled).toList
  let whole := digits.take (digits.length - places)
  let rest := digits.drop (digits.length - places)
  if places = 0 then String.ofList whole else String.ofList (whole ++ '.' :: rest)

end Highlight1C.Number
