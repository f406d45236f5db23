import Highlight1C.Toml.Value

/-!
# Tables under construction

A TOML document fills its tables bit by bit, and the rules on what may still be added depend on how a
table came to be. `Entries` are the keys of a table with what stands there so far.

* `Entries.assign`: gives a value to a key, perhaps one with dots;
* `Entries.beginTable`: begins a table under a header;
* `Entries.beginNext`: begins the next table of a list of tables.

Each fails where the document would say something twice.
-/

namespace Highlight1C.Toml

/-- How a table came to be. -/
inductive Making where
  /-- By a header of its own, or as a whole. -/
  | whole
  /-- On the way to the table of a header. -/
  | onTheWay
  /-- On the way to a key with dots. -/
  | dotted
  deriving DecidableEq, Repr

/-- What stands under a key while a document is read. -/
inductive Entry where
  /-- A value, to which nothing can be added. -/
  | value (v : Toml)
  /-- A table. -/
  | table (making : Making) (entries : List (String × Entry))
  /-- A list of tables, of which the last is still open; the others are given last first. -/
  | tables (last : List (String × Entry)) (earlier : List (List (String × Entry)))

/-- The keys of a table with what stands there. -/
abbrev Entries := List (String × Entry)

namespace Entries

/-- Puts an entry under a key, in the place of one that is there. -/
def put (key : String) (entry : Entry) : Entries → Entries
  | [] => [(key, entry)]
  | (k, e) :: rest => if k = key then (k, entry) :: rest else (k, e) :: put key entry rest

/-- Goes down a path and changes the table at its end by `change`, which is told how that table came to
be. Tables that are missing on the way are made as `missing` says. A path leads into the last table of a
list; it does not lead into values, nor, for a key with dots, into tables made as a whole. -/
def alter (missing : Making) (change : Making → Entries → Option (Making × Entries))
    (making : Making) (entries : Entries) : List String → Option (Making × Entries)
  | [] => change making entries
  | key :: path =>
    match entries.lookup key with
    | none => do
      let (made, below) ← alter missing change missing [] path
      return (making, put key (.table made below) entries)
    | some (.value _) => none
    | some (.tables last earlier) => do
      let (_, below) ← alter missing change .whole last path
      return (making, put key (.tables below earlier) entries)
    | some (.table made below) => do
      if missing = .dotted ∧ made = .whole then none
      let (made, below) ← alter missing change made below path
      return (making, put key (.table made below) entries)

/-- Gives a value to a key at the end of a path. The key must be new, and the path must lead to a table
that is made by keys with dots, or be empty. -/
def insert (path : List String) (key : String) (value : Toml) (making : Making) (entries : Entries) :
    Option (Making × Entries) :=
  let change (reached : Making) (entries : Entries) : Option (Making × Entries) :=
    if (reached == .dotted) != path.isEmpty && (entries.lookup key).isNone then
      some (reached, put key (.value value) entries)
    else none
  alter .dotted change making entries path

/-- Gives a value to a key with dots, below the table of a header. -/
def assign (root : Entries) (header path : List String) (key : String) (value : Toml) :
    Option Entries :=
  (alter .onTheWay (insert path key value) .whole root header).map (·.2)

/-- Begins the table of a header. It may exist already if it was made on the way to another header. -/
def beginTable (root : Entries) (path : List String) (key : String) : Option Entries :=
  let change (making : Making) (entries : Entries) : Option (Making × Entries) :=
    match entries.lookup key with
    | none => some (making, put key (.table .whole []) entries)
    | some (.table .onTheWay below) => some (making, put key (.table .whole below) entries)
    | some _ => none
  (alter .onTheWay change .whole root path).map (·.2)

/-- Begins the next table of a list of tables. -/
def beginNext (root : Entries) (path : List String) (key : String) : Option Entries :=
  let change (making : Making) (entries : Entries) : Option (Making × Entries) :=
    match entries.lookup key with
    | none => some (making, put key (.tables [] []) entries)
    | some (.tables last earlier) => some (making, put key (.tables [] (last :: earlier)) entries)
    | some _ => none
  (alter .onTheWay change .whole root path).map (·.2)

end Entries

mutual

/-- The value of an entry, once the document is read. -/
def Entry.close : Entry → Toml
  | .value v => v
  | .table _ entries => .table (Entry.closeAll entries)
  | .tables last earlier =>
    .array ((Entry.closeTables earlier).reverse ++ [.table (Entry.closeAll last)])

/-- The values of all entries of a table. -/
def Entry.closeAll : List (String × Entry) → List (String × Toml)
  | [] => []
  | (key, entry) :: rest => (key, entry.close) :: Entry.closeAll rest

/-- The values of tables, in the same order. -/
def Entry.closeTables : List (List (String × Entry)) → List Toml
  | [] => []
  | entries :: rest => .table (Entry.closeAll entries) :: Entry.closeTables rest

end

end Highlight1C.Toml
