import Highlight1C.Text.LowerCase
import Highlight1C.Token.Kind

/-!
# Lexicons

A lexicon gives the kinds of words. It is built from lists of words, each list with a kind; a word
that stands in several lists has the kind of the first. Words are looked up without regard to case.
-/

namespace Highlight1C

/-- Words in lower case, each with its kind. -/
abbrev Lexicon := List (List Char × TokenKind)

namespace Lexicon

/-- Enters a word in lower case, unless it is there already. -/
def enter (kind : TokenKind) (lexicon : Lexicon) (word : String) : Lexicon :=
  let entry := Text.lower word.toList
  match lexicon.lookup entry with
  | some _ => lexicon
  | none => lexicon ++ [(entry, kind)]

/-- The lexicon of lists of words. -/
def ofTables (tables : List (List String × TokenKind)) : Lexicon :=
  tables.foldl (fun lexicon (words, kind) => words.foldl (enter kind) lexicon) []

/-- The kind of a word; a word that is not in the lexicon is a name. -/
def classify (lexicon : Lexicon) (word : List Char) : TokenKind :=
  (lexicon.lookup (Text.lower word)).getD .ident

end Lexicon

end Highlight1C
