/-!
# TOML values

The values of the TOML format. Numbers with a fraction and points in time are kept as they are written:
no setting of this program is one.
-/

namespace Highlight1C

/-- A TOML value. -/
inductive Toml where
  | string (text : String)
  | integer (n : Int)
  /-- A number with a fraction or an exponent, or one of the words for infinity and no number. -/
  | float (text : String)
  | boolean (b : Bool)
  /-- A date, a time of day, or both. -/
  | dateTime (text : String)
  | array (items : List Toml)
  /-- Keys with their values, each key once. -/
  | table (entries : List (String × Toml))

namespace Toml

/-- The fields of a record that a value stands for, in the order of their names. A table gives them by
name and an array by place; what is left over does not count. A point in time is a record without any of
the named fields. -/
def fields? (names : List String) : Toml → Option (List (Option Toml))
  | .table entries => some (names.map fun name => entries.lookup name)
  | .array items => some ((List.range names.length).map fun n => items[n]?)
  | .dateTime _ => some (names.map fun _ => none)
  | _ => none

/-- A truth value. -/
def boolean? : Toml → Option Bool
  | .boolean b => some b
  | _ => none

/-- A whole number that is not negative. -/
def nat? : Toml → Option Nat
  | .integer (.ofNat n) => some n
  | _ => none

/-- Whether a value is an empty table or an empty array. -/
def isEmpty : Toml → Bool
  | .table [] | .array [] => true
  | _ => false

/-- A word: a text, or a table in which the word is the only key and has an empty value. -/
def word? : Toml → Option String
  | .string text => some text
  | .table [(key, value)] => if value.isEmpty then some key else none
  | _ => none

end Toml

end Highlight1C
