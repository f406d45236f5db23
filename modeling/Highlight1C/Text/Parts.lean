import Highlight1C.Text.Blank

/-!
# Parts of a text

A text can be divided at a character or into its lines, and it can be freed of the blanks at its ends.
-/

namespace Highlight1C.Text

/-- The parts of a text between the places where `separator` stands. -/
def split (separator : Char) : List Char → List (List Char)
  | [] => [[]]
  | c :: rest =>
    match split separator rest with
    | [] => [[c]]
    | part :: parts => if c = separator then [] :: part :: parts else (c :: part) :: parts

/-- The lines of a text, each with the line feed that ends it, given those already complete and the
characters of the open one, both last first. A line feed at the end of a text begins no further
line. -/
def endedLinesFrom (done : List (List Char)) (pending : List Char) : List Char → List (List Char)
  | [] => (if pending = [] then done else pending.reverse :: done).reverse
  | c :: rest =>
    if c = '\n' then endedLinesFrom ((c :: pending).reverse :: done) [] rest
    else endedLinesFrom done (c :: pending) rest

/-- A line without the line feed that ends it, and then without a carriage return before that. -/
def withoutEnd (line : List Char) : List Char :=
  match line.reverse with
  | '\n' :: '\r' :: before => before.reverse
  | '\n' :: before => before.reverse
  | _ => line

/-- The lines of a text, without what ends them. -/
def lines (text : List Char) : List (List Char) :=
  (endedLinesFrom [] [] text).map withoutEnd

/-- A text without the blanks at its ends. -/
def trim (text : List Char) : List Char :=
  ((text.dropWhile isBlank).reverse.dropWhile isBlank).reverse

end Highlight1C.Text
