import Highlight1C.Toml.Text

/-!
# Numbers and points in time of TOML

Whole numbers are decimal with an optional sign, or hexadecimal, octal or binary without one; they fit
into 64 bits. A number with a fraction or an exponent must not be so large that it would be infinite.
Underscores may stand between digits. Dates are checked against the calendar.

Each function takes the text after what has been recognised, and gives what it reads and what is left.
-/

namespace Highlight1C.Toml

/-- Whether underscores stand between digits only. -/
def wellSpaced : List Char → Bool
  | [] => false
  | [c] => c != '_'
  | '_' :: _ => false
  | _ :: '_' :: rest => wellSpaced rest
  | _ :: rest => wellSpaced rest

/-- Reads digits, without the underscores between them. -/
def digits? (isDigit : Char → Bool) (text : List Char) : Option (List Char × List Char) :=
  let run := text.takeWhile fun c => isDigit c || c == '_'
  if wellSpaced run then some (run.filter (· != '_'), text.drop run.length) else none

/-- The value of digits to a base; a digit without a value counts as zero. -/
def digitsValue (base : Nat) (digits : List Char) : Nat :=
  digits.foldl (fun value c => value * base + (hexValue? c).getD 0) 0

/-- Reads a sign, if there is one, and says whether it is a minus. -/
def sign (text : List Char) : Bool × List Char :=
  match text with
  | '-' :: rest => (true, rest)
  | '+' :: rest => (false, rest)
  | _ => (false, text)

/-- Reads decimal digits without a zero in front. -/
def decimal? (text : List Char) : Option (List Char × List Char) := do
  let (digits, rest) ← digits? Char.isDigit text
  if digits.head? = some '0' ∧ digits.length ≠ 1 then none else some (digits, rest)

/-- The number of whole numbers below zero that fit into 64 bits, 2⁶³. -/
def integerBound : Nat := 0x8000000000000000

/-- A whole number, if it fits into 64 bits. -/
def integerOf? (negative : Bool) (magnitude : Nat) : Option Int :=
  if negative then (if magnitude ≤ integerBound then some (-(magnitude : Int)) else none)
  else if magnitude < integerBound then some magnitude
  else none

/-- Reads a whole number to a base other than ten. -/
def basedInteger? (base : Nat) (isDigit : Char → Bool) (text : List Char) :
    Option (Toml × List Char) := do
  let (digits, rest) ← digits? isDigit text
  let n ← integerOf? false (digitsValue base digits)
  return (.integer n, rest)

/-- Reads a whole number. -/
def integer? (text : List Char) : Option (Toml × List Char) :=
  match text with
  | '0' :: 'x' :: rest => basedInteger? 16 (fun c => (hexValue? c).isSome) rest
  | '0' :: 'o' :: rest => basedInteger? 8 (fun c => '0' ≤ c && c ≤ '7') rest
  | '0' :: 'b' :: rest => basedInteger? 2 (fun c => c == '0' || c == '1') rest
  | _ => do
    let (negative, unsigned) := sign text
    let (digits, rest) ← decimal? unsigned
    let n ← integerOf? negative (digitsValue 10 digits)
    return (.integer n, rest)

/-- Reads an exponent. -/
def exponent? (text : List Char) : Option (Int × List Char) :=
  match text with
  | c :: rest =>
    if c = 'e' ∨ c = 'E' then do
      let (negative, unsigned) := sign rest
      let (digits, rest) ← digits? Char.isDigit unsigned
      let value : Int := digitsValue 10 digits
      return (if negative then -value else value, rest)
    else none
  | [] => none

/-- The first number that is nearer to 2¹⁰²⁴ than to any number of 53 binary digits below it. -/
def floatBound : Nat := Nat.pow 2 1024 - Nat.pow 2 970

/-- Whether digits times a power of ten are too large for a binary number of 53 digits and eleven digits
of exponent. The number of decimal places tells this unless it is close to that of the bound. -/
def isInfinite (digits : List Char) (exponent : Int) : Bool :=
  let digits := digits.dropWhile (· == '0')
  let places := (digits.length : Int) + exponent
  if digits.isEmpty || places < 300 then false
  else if 320 < places then true
  else
    let value := digitsValue 10 digits
    if 0 ≤ exponent then floatBound ≤ value * Nat.pow 10 exponent.toNat
    else floatBound * Nat.pow 10 (-exponent).toNat ≤ value

/-- What was read of a text, given what is left of it. -/
def readPart (text rest : List Char) : String :=
  String.ofList (text.take (text.length - rest.length))

/-- Reads one of the words for infinity and no number, perhaps after a sign. -/
def floatWord? (text : List Char) : Option (Toml × List Char) :=
  match (sign text).2 with
  | 'i' :: 'n' :: 'f' :: rest | 'n' :: 'a' :: 'n' :: rest => some (.float (readPart text rest), rest)
  | _ => none

/-- Reads a number with a fraction, an exponent or both. Only a positive number can be too large. -/
def float? (text : List Char) : Option (Toml × List Char) := do
  let (negative, unsigned) := sign text
  let (whole, rest) ← decimal? unsigned
  let (digits, power, rest) ← match rest with
    | '.' :: after => do
      let (fraction, rest) ← digits? Char.isDigit after
      let (exponent, rest) := (exponent? rest).getD (0, rest)
      pure (whole ++ fraction, exponent - fraction.length, rest)
    | _ => do
      let (exponent, rest) ← exponent? rest
      pure (whole, exponent, rest)
  if !negative && isInfinite digits power then none
  else some (.float (readPart text rest), rest)

/-- Reads exactly `n` digits, whose value must lie between two bounds. -/
def number? (n low high : Nat) (text : List Char) : Option (Nat × List Char) :=
  let digits := text.take n
  let value := digitsValue 10 digits
  if digits.length = n ∧ digits.all Char.isDigit ∧ low ≤ value ∧ value ≤ high then
    some (value, text.drop n)
  else none

/-- What follows a given character, if the text begins with it. -/
def after? (c : Char) (text : List Char) : Option (List Char) :=
  match text with
  | d :: rest => if d = c then some rest else none
  | [] => none

/-- How many days a month has. -/
def daysIn (year month : Nat) : Nat :=
  if month = 2 then
    if year % 4 = 0 ∧ (year % 100 ≠ 0 ∨ year % 400 = 0) then 29 else 28
  else if [4, 6, 9, 11].contains month then 30
  else 31

/-- What follows a date, if the text begins with one. -/
def afterDate? (text : List Char) : Option (List Char) := do
  let (year, rest) ← number? 4 0 9999 text
  let (month, rest) ← number? 2 1 12 (← after? '-' rest)
  let (_, rest) ← number? 2 1 (daysIn year month) (← after? '-' rest)
  return rest

/-- What follows a time of day, if the text begins with one. -/
def afterTime? (text : List Char) : Option (List Char) := do
  let (_, rest) ← number? 2 0 23 text
  let (_, rest) ← number? 2 0 59 (← after? ':' rest)
  let (_, rest) ← number? 2 0 60 (← after? ':' rest)
  match rest with
  | '.' :: after =>
    let fraction := after.takeWhile Char.isDigit
    return if fraction.isEmpty then rest else after.drop fraction.length
  | _ => return rest

/-- What follows a distance from universal time, if the text begins with one. -/
def afterOffset? (text : List Char) : Option (List Char) :=
  match text with
  | c :: rest =>
    if c = 'Z' ∨ c = 'z' then some rest
    else if c = '+' ∨ c = '-' then do
      let (_, rest) ← number? 2 0 23 rest
      let (_, rest) ← number? 2 0 59 (← after? ':' rest)
      return rest
    else none
  | [] => none

/-- What follows a time of day on a date, if the text begins with one. -/
def afterTimeOfDate? (text : List Char) : Option (List Char) :=
  match text with
  | c :: rest =>
    if c = 'T' ∨ c = 't' ∨ c = ' ' then do
      let rest ← afterTime? rest
      return (afterOffset? rest).getD rest
    else none
  | [] => none

/-- Reads a date, a time of day, or both. -/
def dateTime? (text : List Char) : Option (Toml × List Char) := do
  let rest ← match afterDate? text with
    | some rest => some ((afterTimeOfDate? rest).getD rest)
    | none => afterTime? text
  return (.dateTime (readPart text rest), rest)

/-- Reads what begins with a sign or a digit. -/
def numeric? (text : List Char) : Option (Toml × List Char) :=
  dateTime? text <|> float? text <|> floatWord? text <|> integer? text

end Highlight1C.Toml
