import Highlight1C.Toml.Value

/-!
# Quoted texts of TOML

A text stands between quotes, on one line or, between triple quotes, on several. Between double quotes
a backslash begins an escape; between single quotes everything stands for itself. Controls other than the
tab are refused, and a line ends with a line feed, perhaps after a carriage return.

Each function takes the text after what has been recognised, and gives what it reads and what is left.
-/

namespace Highlight1C.Toml

/-- A blank or a tab. -/
def isBlank (c : Char) : Bool :=
  c == ' ' || c == '\t'

/-- What may stand in texts and comments: a tab, and everything but controls. -/
def isPlain (c : Char) : Bool :=
  c == '\t' || (' ' ≤ c && c != '\x7f')

/-- The quote of texts with escapes. -/
def doubleQuote : Char := '\x22'

/-- The quote of texts without escapes. -/
def singleQuote : Char := '\x27'

/-- What follows a line's end, if the text begins with one. -/
def afterLineEnd? : List Char → Option (List Char)
  | '\n' :: rest => some rest
  | '\r' :: '\n' :: rest => some rest
  | _ => none

/-- The value of a hexadecimal digit. -/
def hexValue? (c : Char) : Option Nat :=
  if c.isDigit then some (c.toNat - '0'.toNat)
  else if 'a' ≤ c && c ≤ 'f' then some (c.toNat - 'a'.toNat + 10)
  else if 'A' ≤ c && c ≤ 'F' then some (c.toNat - 'A'.toNat + 10)
  else none

/-- The character whose code point is written in the first `n` hexadecimal digits. -/
def codePoint? (n : Nat) (text : List Char) : Option Char := do
  let digits ← (text.take n).mapM hexValue?
  let code := digits.foldl (fun value digit => value * 16 + digit) 0
  if digits.length = n ∧ code.isValidChar then some (Char.ofNat code) else none

/-- The character that an escape stands for, and how many characters it takes after its backslash. -/
def escape? : List Char → Option (Char × Nat)
  | 'b' :: _ => some ('\x08', 1)
  | 't' :: _ => some ('\t', 1)
  | 'n' :: _ => some ('\n', 1)
  | 'f' :: _ => some ('\x0c', 1)
  | 'r' :: _ => some ('\r', 1)
  | '\x22' :: _ => some ('\x22', 1)
  | '\\' :: _ => some ('\\', 1)
  | 'u' :: rest => (codePoint? 4 rest).map (·, 5)
  | 'U' :: rest => (codePoint? 8 rest).map (·, 9)
  | _ => none

/-- Reads a text on one line up to its quote, with what has been read before it, last character first. -/
def lineTextFrom (quote : Char) (read : List Char) : List Char → Option (List Char × List Char)
  | [] => none
  | c :: rest =>
    if c = quote then some (read.reverse, rest)
    else if c = '\\' ∧ quote = doubleQuote then
      match escape? rest with
      | some (e, n) => lineTextFrom quote (e :: read) (rest.drop n)
      | none => none
    else if isPlain c then lineTextFrom quote (c :: read) rest
    else none
termination_by text => text.length
decreasing_by
  all_goals simp only [List.length_drop, List.length_cons]
  all_goals omega

/-- Reads a text on several lines up to its three quotes, before which two more may stand, with what has
been read before it, last character first. While `skipping`, blanks and line ends are passed over, as
they are after a backslash at the end of a line. -/
def blockTextFrom (quote : Char) (read : List Char) (skipping : Bool) :
    List Char → Option (List Char × List Char)
  | [] => none
  | c :: rest =>
    if c = '\n' then blockTextFrom quote (if skipping then read else c :: read) skipping rest
    else if c = '\r' then
      if rest.head? = some '\n' then blockTextFrom quote read skipping rest else none
    else if skipping && isBlank c then blockTextFrom quote read skipping rest
    else if c = quote then
      let more := (rest.takeWhile (· == quote)).length
      if more < 2 then blockTextFrom quote (c :: read) false rest
      else
        let inside := min (more - 2) 2
        some ((List.replicate inside quote ++ read).reverse, rest.drop (inside + 2))
    else if c = '\\' ∧ quote = doubleQuote then
      if (afterLineEnd? (rest.dropWhile isBlank)).isSome then blockTextFrom quote read true rest
      else match escape? rest with
      | some (e, n) => blockTextFrom quote (e :: read) false (rest.drop n)
      | none => none
    else if isPlain c then blockTextFrom quote (c :: read) false rest
    else none
termination_by text => text.length
decreasing_by
  all_goals simp only [List.length_drop, List.length_cons]
  all_goals omega

/-- Reads a text on one line. -/
def lineText? (text : List Char) : Option (String × List Char) :=
  match text with
  | c :: rest =>
    if c = doubleQuote ∨ c = singleQuote then
      (lineTextFrom c [] rest).map fun (read, rest) => (String.ofList read, rest)
    else none
  | [] => none

/-- Reads a text on one line or on several. A line's end right after three quotes does not count. -/
def text? (text : List Char) : Option (String × List Char) :=
  match text with
  | c :: d :: e :: rest =>
    if (c = doubleQuote ∨ c = singleQuote) ∧ d = c ∧ e = c then
      (blockTextFrom c [] false ((afterLineEnd? rest).getD rest)).map fun (read, rest) =>
        (String.ofList read, rest)
    else lineText? text
  | _ => lineText? text

end Highlight1C.Toml
