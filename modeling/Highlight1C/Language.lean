import Highlight1C.Json
import Highlight1C.Lexer.Module
import Highlight1C.Lexer.Query
import Highlight1C.Path

/-!
# Languages

The two languages that can be highlighted: the code of modules, and queries. A file's language is known
by its extension, a user's choice by its name.
-/

namespace Highlight1C

/-- A language that can be highlighted. -/
inductive Language where
  /-- The code of modules. -/
  | module
  /-- Queries. -/
  | query
  deriving DecidableEq, Repr

namespace Language

/-- Every language. -/
def all : List Language := [.module, .query]

/-- The name of a language. -/
def name : Language → String
  | .module => "rus1c"
  | .query => "rus1c_sql"

/-- The usual extension of a language's files, if it has files. -/
def extension? : Language → Option String
  | .module => some "1c"
  | .query => none

/-- The language with exactly this name. -/
def ofExactName? (name : String) : Option Language :=
  all.find? (·.name == name)

/-- The language that a JSON value names: its name, or an object with its name as the only field, which is
null. -/
def ofJson? : Json → Option Language
  | .string name => ofExactName? name
  | .object [(name, .null)] => ofExactName? name
  | _ => none

/-- The language with this name, in any case of its letters. -/
def ofName? (name : String) : Option Language :=
  ofExactName? (String.ofList (Text.lowerAscii name.toList))

/-- The language of files with this extension, in any case of its letters. -/
def ofExtension? (extension : String) : Option Language :=
  let extension := String.ofList (Text.lowerAscii extension.toList)
  if extension = "1c" || extension = "bsl" then some .module else none

/-- The language of a file, by its path. -/
def ofPath? (path : String) : Option Language :=
  (Path.extension? path).bind ofExtension?

/-- Reads a text in a language. -/
def read : Language → List Char → Reading
  | .module => ModuleLexer.lexer.read
  | .query => QueryLexer.lexer.read

end Language

end Highlight1C
