import Highlight1C.Pattern.Tree

/-!
# Reading written patterns

`Tree.parse` reads a written pattern from left to right. Open groups and open sets of characters are
kept on stacks, so a pattern is read in as many steps as it has characters, and the first mistake in
the order of the text is the one reported; what was left open is reported last.
-/

namespace Highlight1C.Pattern

/-- What is left of a pattern. -/
structure Reader where
  rest : List Char
  /-- How many characters have been read. -/
  place : Nat := 0
  /-- Whether blanks and comments do not count. -/
  verbose : Bool := false
  /-- The names of groups and where they stand. -/
  names : List (List Char × Stretch) := []
  deriving DecidableEq, Repr

/-- An action on what is left of a pattern, which may find a mistake. -/
abbrev Read := StateT Reader (Except Mistake)

/-! ## Characters -/

/-- How many characters of blanks and comments a text begins with; `comment` says that a comment is
open. -/
def blankLength (comment : Bool) : List Char → Nat
  | [] => 0
  | c :: rest =>
    if comment then 1 + blankLength (c != '\n') rest
    else if Text.isBlank c then 1 + blankLength false rest
    else if c = '#' then 1 + blankLength true rest
    else 0

/-- The next character. -/
def peek : Read (Option Char) :=
  return (← get).rest.head?

/-- Where the next character stands. -/
def here : Read Nat :=
  return (← get).place

/-- Passes a number of characters. -/
def pass (n : Nat) : Read Unit :=
  modify fun r => { r with rest := r.rest.drop n, place := r.place + min n r.rest.length }

/-- Passes blanks and comments, if they do not count. -/
def passBlanks : Read Unit := do
  let r ← get
  if r.verbose then pass (blankLength false r.rest)

/-- Passes a character and the blanks after it. -/
def passOne : Read Unit := do
  pass 1
  passBlanks

/-- The character after the next one, with blanks passed over if they do not count. -/
def peekSecond : Read (Option Char) := do
  let r ← get
  let rest := r.rest.tail
  return (rest.drop (if r.verbose then blankLength false rest else 0)).head?

/-- Passes a text if it comes next. -/
def passText (text : String) : Read Bool := do
  if text.toList.isPrefixOf (← get).rest then
    pass text.length
    return true
  else return false

/-- Gives up with a flaw. -/
def fail {α : Type} (flaw : Flaw) (start stop : Nat) : Read α :=
  throw ⟨flaw, ⟨start, stop⟩, none⟩

/-- The characters of a kind that come next, with blanks passed over if they do not count. -/
def takeWhileFrom (kind : Char → Bool) : Nat → Read (List Char)
  | 0 => return []
  | fuel + 1 => do
    match ← peek with
    | none => return []
    | some c =>
      if kind c then
        passOne
        return c :: (← takeWhileFrom kind fuel)
      else return []

/-- The characters of a kind that come next. -/
def takeWhile (kind : Char → Bool) : Read (List Char) := do
  takeWhileFrom kind (← get).rest.length

/-! ## Numbers and escapes -/

/-- The value of a hexadecimal digit. -/
def hexValue (c : Char) : Nat :=
  if c.isDigit then c.toNat - '0'.toNat
  else if c.isUpper then c.toNat - 'A'.toNat + 10
  else c.toNat - 'a'.toNat + 10

/-- The value of hexadecimal digits. -/
def hexNumber (digits : List Char) : Nat :=
  digits.foldl (fun n c => n * 16 + hexValue c) 0

/-- The largest number of repetitions that can be written. -/
def maxCount : Nat := 4294967295

/-- Reads a decimal number, or says what is wrong with it. -/
def number : Read (Except Mistake Nat) := do
  let blanks := ((← get).rest.takeWhile Text.isBlank).length
  pass blanks
  let start ← here
  let digits ← takeWhile Char.isDigit
  let stretch : Stretch := ⟨start, ← here⟩
  let _ ← takeWhile Text.isBlank
  let value := digits.foldl (fun n c => n * 10 + (c.toNat - '0'.toNat)) 0
  return if digits.isEmpty then .error ⟨.countEmpty, stretch, none⟩
    else if maxCount < value then .error ⟨.numberTooLarge, stretch, none⟩
    else .ok value

/-- The character with a code. -/
def charOfCode (start stop code : Nat) : Read Char :=
  if code.isValidChar then return Char.ofNat code else fail .codeInvalid start stop

/-- Reads so many more hexadecimal digits, with those read before, last first. -/
def hexDigits (read : List Char) : Nat → Read (List Char)
  | 0 => return read.reverse
  | n + 1 => do
    match ← peek with
    | none => fail .escapeIncomplete (← here) (← here)
    | some c =>
      if !Text.isHexDigit c then fail .codeDigit (← here) ((← here) + 1)
      passOne
      hexDigits (c :: read) n

/-- Reads a code in braces. -/
def bracedCode : Read Char := do
  let brace ← here
  passOne
  let digits ← takeWhile Text.isHexDigit
  match ← peek with
  | none => fail .escapeIncomplete brace (← here)
  | some '\x7d' =>
    let stop ← here
    passOne
    if digits.isEmpty then fail .codeEmpty brace (← here)
    charOfCode (brace + 1) stop (hexNumber digits)
  | some _ => fail .codeDigit (← here) ((← here) + 1)

/-- Reads the code of a character after the letter that announces it, of `size` digits or in braces.
-/
def hexLiteral (start size : Nat) : Read Literal := do
  passOne
  match ← peek with
  | none => fail .escapeIncomplete (← here) (← here)
  | some '\x7b' =>
    let c ← bracedCode
    return ⟨⟨start, ← here⟩, c, false⟩
  | some _ =>
    let from_ ← here
    let digits ← hexDigits [] size
    let c ← charOfCode from_ (← here) (hexNumber digits)
    return ⟨⟨start, ← here⟩, c, size = 2⟩

/-- The edge of a word that is named in braces after the letter for edges; anything else in braces
is left for repetition. -/
def namedEdge? (start : Nat) : Read (Option WordEdge) := do
  let isNameChar (c : Char) : Bool := c.isAlpha || c == '-'
  let before ← get
  let brace ← here
  passOne
  match ← peek with
  | none => fail .edgeIncomplete start (← here)
  | some c =>
    if !isNameChar c then
      set before
      return none
    let first ← here
    let name ← takeWhile isNameChar
    if (← peek) != some '\x7d' then fail .edgeUnclosed brace (← here)
    let stop ← here
    pass 1
    match String.ofList name with
    | "start" => return some .start
    | "end" => return some .stop
    | "start-half" => return some .noneBefore
    | "end-half" => return some .noneAfter
    | _ => fail .edgeUnknown first stop

/-- Reads the name of a property after the letter that announces it. -/
def property (start : Nat) : Read Stretch := do
  passOne
  match ← peek with
  | none => fail .escapeIncomplete (← here) (← here)
  | some '\x7b' =>
    passOne
    let _ ← takeWhile (· != '\x7d')
    if (← peek).isNone then fail .escapeIncomplete (← here) (← here)
    pass 1
    return ⟨start, ← here⟩
  | some c =>
    if c = '\\' then fail .propertyName (← here) ((← here) + 1)
    passOne
    return ⟨start, ← here⟩

/-- The characters that stand for themselves only after a backslash. -/
def isMeta (c : Char) : Bool :=
  "\\.+*?()|[]\x7b\x7d^$#&-~".toList.contains c

/-- The characters that may stand after a backslash and then stand for themselves. -/
def isEscapable (c : Char) : Bool :=
  isMeta c || (c.toNat < 0x80 && !c.isAlphanum && c != '<' && c != '>')

/-- What an escape stands for. -/
inductive Escape where
  | char (l : Literal)
  | mark (stretch : Stretch) (m : Mark)
  | set (s : SetTree)

/-- Where an escape stands. -/
def Escape.stretch : Escape → Stretch
  | .char l => l.stretch
  | .mark s _ => s
  | .set (.letter s _ _) => s
  | .set (.property s) => s
  | .set _ => ⟨0, 0⟩

/-- The tree of an escape outside of sets. -/
def Escape.tree : Escape → Tree
  | .char l => .char l
  | .mark _ m => .mark m
  | .set s => .set s

/-- The class that a letter stands for, and whether it stands for what is not in the class. -/
def letterClass? : Char → Option (Bool × LetterClass)
  | 'd' => some (false, .digit)
  | 's' => some (false, .space)
  | 'w' => some (false, .word)
  | 'D' => some (true, .digit)
  | 'S' => some (true, .space)
  | 'W' => some (true, .word)
  | _ => none

/-- The control character that a letter stands for. -/
def controlChar? : Char → Option Char
  | 'a' => some '\x07'
  | 'f' => some '\x0c'
  | 't' => some '\t'
  | 'n' => some '\n'
  | 'r' => some '\r'
  | 'v' => some '\x0b'
  | _ => none

/-- Reads what follows a backslash and its character, which has been passed. -/
def shortEscape (start : Nat) (c : Char) : Read Escape := do
  let stretch : Stretch := ⟨start, ← here⟩
  if isEscapable c then return .char ⟨stretch, c, false⟩
  match controlChar? c with
  | some control => return .char ⟨stretch, control, false⟩
  | none =>
    match c with
    | 'A' => return .mark stretch .textStart
    | 'z' => return .mark stretch .textStop
    | 'B' => return .mark stretch (.edge .neither)
    | '<' => return .mark stretch (.edge .start)
    | '>' => return .mark stretch (.edge .stop)
    | 'b' =>
      let named ← if (← peek) = some '\x7b' then namedEdge? start else pure none
      return .mark ⟨start, ← here⟩ (.edge (named.getD .any))
    | _ => fail .escapeUnknown start stretch.stop

/-- Reads an escape, which begins with a backslash. -/
def escape : Read Escape := do
  let start ← here
  pass 1
  match ← peek with
  | none => fail .escapeIncomplete start (← here)
  | some c =>
    if c.isDigit then fail .backReference start ((← here) + 1)
    match c with
    | 'x' => return .char (← hexLiteral start 2)
    | 'u' => return .char (← hexLiteral start 4)
    | 'U' => return .char (← hexLiteral start 8)
    | 'p' => return .set (.property (← property start))
    | 'P' => return .set (.property (← property start))
    | _ =>
      pass 1
      match letterClass? c with
      | some (negated, kind) => return .set (.letter ⟨start, ← here⟩ negated kind)
      | none => shortEscape start c

/-! ## Sets of characters -/

/-- A set that is open: where it began, whether it is negated, and what was read of the set around
it. -/
structure OpenSet where
  stretch : Stretch
  negated : Bool
  /-- What was read of the set around it. -/
  around : SetTree
  /-- The operation of the set around it that waits for its second part, with its first. -/
  waiting : Option (SetOperation × SetTree)

/-- A set with one more part. -/
def SetTree.add (s part : SetTree) : SetTree :=
  match s with
  | .nothing => part
  | s => .combine .union s part

/-- A set after the operation that waited for it. -/
def SetTree.finish (waiting : Option (SetOperation × SetTree)) (s : SetTree) : SetTree :=
  match waiting with
  | some (operation, first) => .combine operation first s
  | none => s

/-- Reads the hyphens at the beginning of a set, which stand for themselves. -/
def leadingHyphens (start : Nat) (read : SetTree) : Nat → Read SetTree
  | 0 => return read
  | fuel + 1 => do
    if (← peek) = some '-' then
      let place ← here
      passOne
      if (← peek).isNone then fail .setUnclosed start start
      leadingHyphens start (read.add (.char ⟨⟨place, place + 1⟩, '-', false⟩)) fuel
    else return read

/-- Reads the beginning of a set up to its first part; a bracket there stands for itself. -/
def openSet (around : SetTree) (waiting : Option (SetOperation × SetTree)) :
    Read (OpenSet × SetTree) := do
  let start ← here
  passOne
  if (← peek).isNone then fail .setUnclosed start (← here)
  let negated := (← peek) = some '^'
  if negated then
    passOne
    if (← peek).isNone then fail .setUnclosed start (← here)
  let read ← leadingHyphens start .nothing (← get).rest.length
  let place ← here
  let read ←
    if read = .nothing ∧ (← peek) = some ']' then do
      passOne
      if (← peek).isNone then fail .setUnclosed start (← here)
      pure (SetTree.char ⟨⟨place, place + 1⟩, ']', false⟩)
    else pure read
  return (⟨⟨start, ← here⟩, negated, around, waiting⟩, read)

/-- Reads a class with a name, between brackets and colons, if there is one. -/
def namedSet? : Read (Option SetTree) := do
  let before ← get
  let start ← here
  let given : Option SetTree ← do
    pass 1
    if ← passText ":" then
      let negated ← passText "^"
      let name := (← get).rest.takeWhile (· != ':')
      pass name.length
      if ← passText ":]" then
        let stretch : Stretch := ⟨start, ← here⟩
        pure ((namedClasses.lookup (String.ofList name)).map (.named stretch negated ·))
      else pure none
    else pure none
  if given.isNone then set before
  return given

/-- Reads one character or escape of a set. -/
def setItem : Read Escape := do
  let start ← here
  match ← peek with
  | some '\\' => escape
  | some c =>
    pass 1
    return .char ⟨⟨start, start + 1⟩, c, false⟩
  | none => fail .setUnclosed start start

/-- An escape as an end of a range. -/
def rangeEnd : Escape → Read Literal
  | .char l => return l
  | e => fail .setRangeEnd e.stretch.start e.stretch.stop

/-- Reads a part of the set that began at a stretch: a character, a class or a range. -/
def setPart (opened : Stretch) : Read SetTree := do
  let first ← setItem
  passBlanks
  if (← peek).isNone then fail .setUnclosed opened.start opened.stop
  let second ← peekSecond
  if (← peek) != some '-' || second = some ']' || second = some '-' then
    match first with
    | .char l => return .char l
    | .set s => return s
    | .mark s _ => fail .setEscape s.start s.stop
  passOne
  if (← peek).isNone then fail .setUnclosed opened.start opened.stop
  let last ← setItem
  let a ← rangeEnd first
  let b ← rangeEnd last
  if b.char < a.char then fail .setRangeOrder a.stretch.start b.stretch.stop
  return .range a b

/-- The operation on sets that comes next, if there is one. -/
def setOperation? : Read (Option SetOperation) := do
  if ← passText "&&" then return some .inter
  else if ← passText "--" then return some .diff
  else if ← passText "~~" then return some .symmDiff
  else return none

/-- Reads on in a set until it and all sets within it are closed. The sets that are open are given,
the innermost first, with the operation that waits for its second part, and what was read since. -/
def setFrom (opened : OpenSet) (outer : List OpenSet) (waiting : Option (SetOperation × SetTree))
    (read : SetTree) : Nat → Read SetTree
  | 0 => fail .setUnclosed opened.stretch.start opened.stretch.stop
  | fuel + 1 => do
    passBlanks
    match ← peek with
    | none => fail .setUnclosed opened.stretch.start opened.stretch.stop
    | some '[' =>
      match ← namedSet? with
      | some s => setFrom opened outer waiting (read.add s) fuel
      | none =>
        let (inner, within) ← openSet read waiting
        setFrom inner (opened :: outer) none within fuel
    | some ']' =>
      pass 1
      let closed : SetTree :=
        .bracket ⟨opened.stretch.start, ← here⟩ opened.negated (read.finish waiting)
      match outer with
      | [] => return closed
      | next :: outer => setFrom next outer opened.waiting (opened.around.add closed) fuel
    | some _ =>
      match ← setOperation? with
      | some operation =>
        setFrom opened outer (some (operation, read.finish waiting)) .nothing fuel
      | none => setFrom opened outer waiting (read.add (← setPart opened.stretch)) fuel

/-- Reads a set of characters in brackets. -/
def bracketSet : Read SetTree := do
  let (opened, read) ← openSet .nothing none
  setFrom opened [] none read ((← get).rest.length + 1)

/-! ## Groups and flags -/

/-- The flag that a letter stands for. -/
def flag? : Char → Option Flag
  | 'i' => some .anyCase
  | 'm' => some .lines
  | 's' => some .dotAll
  | 'U' => some .swapGreed
  | 'u' => some .wide
  | 'R' => some .returns
  | 'x' => some .verbose
  | _ => none

/-- Reads flags up to a colon or a parenthesis. Those read before are given with their places, last
first, and with them the place of the hyphen after which flags are cleared. -/
def flagsFrom (read : List (Flag × Bool × Nat)) (hyphen : Option Nat) : Nat → Read FlagChange
  | 0 => return []
  | fuel + 1 => do
    let place ← here
    match ← peek with
    | none => fail .flagMissing place place
    | some c =>
      if c = ':' || c = ')' then
        match hyphen with
        | some h => if h + 1 = place then fail .flagNegationDangling h place
        | none => pure ()
        return (read.map fun (flag, value, _) => (flag, value)).reverse
      else if c = '-' then
        match hyphen with
        | some h => throw ⟨.flagNegationTwice, ⟨place, place + 1⟩, some ⟨h, h + 1⟩⟩
        | none =>
          pass 1
          flagsFrom read (some place) fuel
      else match flag? c with
        | none => fail .flagUnknown place (place + 1)
        | some flag =>
          match read.find? (·.1 = flag) with
          | some (_, _, earlier) =>
            throw ⟨.flagTwice, ⟨place, place + 1⟩, some ⟨earlier, earlier + 1⟩⟩
          | none =>
            pass 1
            flagsFrom ((flag, hyphen.isNone, place) :: read) hyphen fuel

/-- Whether a character may stand in the name of a group. -/
def isNameChar (first : Bool) (c : Char) : Bool :=
  c == '_' || c.isAlpha || 0x80 ≤ c.toNat ||
    (!first && (c == '.' || c == '[' || c == ']' || c.isDigit))

/-- Reads the name of a group up to the sign that closes it. -/
def groupName : Read Unit := do
  let start ← here
  let name := (← get).rest.takeWhile (· != '>')
  match name.zipIdx.find? fun (c, i) => !isNameChar (i == 0) c with
  | some (_, i) => fail .nameChar (start + i) (start + i + 1)
  | none => pure ()
  pass name.length
  if (← peek).isNone then fail .nameUnclosed (← here) (← here)
  let stretch : Stretch := ⟨start, ← here⟩
  pass 1
  if name.isEmpty then fail .nameEmpty start start
  match (← get).names.lookup name with
  | some earlier => throw ⟨.nameTwice, stretch, some earlier⟩
  | none => modify fun r => { r with names := (name, stretch) :: r.names }

/-- What an opening parenthesis begins. -/
inductive Opening where
  /-- Flags that hold up to the end of the group. -/
  | flags (change : FlagChange)
  /-- A group, with flags that hold in it. -/
  | group (change : FlagChange)

/-- Reads an opening parenthesis and what belongs to it. -/
def opening : Read Opening := do
  let start ← here
  pass 1
  passBlanks
  for text in ["?=", "?!", "?<=", "?<!"] do
    if ← passText text then fail .lookAround start (← here)
  let inner ← here
  if ← passText "?P<" <||> passText "?<" then
    groupName
    return .group []
  else if ← passText "?" then
    if (← peek).isNone then fail .groupUnclosed start (start + 1)
    let change ← flagsFrom [] none ((← get).rest.length + 1)
    if ← passText ")" then
      if change.isEmpty then fail .nothingToRepeat inner inner
      return .flags change
    else
      pass 1
      return .group change
  else return .group []

/-! ## Repetition -/

/-- Passes the sign that makes a repetition short. -/
def passShort : Read Unit := do
  let _ ← passText "?"

/-- Reads how often something is repeated, in braces. -/
def counts : Read (Nat × Option Nat) := do
  let start ← here
  let unclosed {α : Type} : Read α := do fail .countUnclosed start (← here)
  passOne
  if (← peek).isNone then unclosed
  let least ← number
  if (← peek).isNone then unclosed
  let (least, most) ←
    if (← peek) = some ',' then do
      passOne
      if (← peek).isNone then unclosed
      if (← peek) = some '\x7d' then do
        let least ← ofExcept least
        pure (least, (none : Option Nat))
      else do
        let least ← ofExcept least
        let most ← ofExcept (← number)
        pure (least, some most)
    else do
      let least ← ofExcept least
      pure (least, some least)
  if (← peek) != some '\x7d' then unclosed
  passOne
  passShort
  if most.any (· < least) then fail .countOrder start (← here)
  return (least, most)
where
  /-- A value, or the mistake in its place. -/
  ofExcept {α : Type} : Except Mistake α → Read α
    | .ok value => return value
    | .error m => throw m

/-! ## Patterns -/

/-- A group that is open. -/
structure OpenGroup where
  /-- Where its parenthesis stands. -/
  place : Nat
  change : FlagChange
  /-- What was read before it in the same branch of a choice, last first. -/
  before : List Tree
  /-- The branches before that, last first. -/
  branches : List Tree
  /-- Whether blanks did not count before it. -/
  verbose : Bool

/-- The tree of a group's branches. -/
def groupTree (branches items : List Tree) : Tree :=
  Tree.choiceOfReversed (Tree.ofReversed items :: branches)

/-- Repeats the last of the trees that were read, last first. -/
def repeatLast (items : List Tree) (counts : Read (Nat × Option Nat)) : Read (List Tree) := do
  match items with
  | t :: before =>
    if !t.isRepeatable then fail .nothingToRepeat (← here) (← here)
    let (least, most) ← counts
    return .repeated t least most :: before
  | [] => fail .nothingToRepeat (← here) (← here)

/-- Passes the sign of a repetition, which is given as counts. -/
def signCounts (least : Nat) (most : Option Nat) : Read (Nat × Option Nat) := do
  pass 1
  passShort
  return (least, most)

/-- Reads a character, a sign or an escape. -/
def simple (c : Char) : Read Tree := do
  let start ← here
  let stretch : Stretch := ⟨start, start + 1⟩
  match c with
  | '\\' => return (← escape).tree
  | '[' => return .set (← bracketSet)
  | '.' =>
    pass 1
    return .dot stretch
  | '^' =>
    pass 1
    return .mark .lineStart
  | '$' =>
    pass 1
    return .mark .lineStop
  | c =>
    pass 1
    return .char ⟨stretch, c, false⟩

/-- Reads on to the end of a pattern. The groups that are open are given, the innermost first, and
of the innermost the branches and the trees of the last one, last first. -/
def treeFrom (opened : List OpenGroup) (branches items : List Tree) : Nat → Read Tree
  | 0 => return groupTree branches items
  | fuel + 1 => do
    passBlanks
    let place ← here
    match ← peek with
    | none =>
      match opened with
      | [] => return groupTree branches items
      | g :: _ => fail .groupUnclosed g.place (g.place + 1)
    | some '(' =>
      let verbose := (← get).verbose
      match ← opening with
      | .flags change =>
        modify fun r => { r with verbose := (change.value? .verbose).getD r.verbose }
        treeFrom opened branches (.flags change :: items) fuel
      | .group change =>
        modify fun r => { r with verbose := (change.value? .verbose).getD r.verbose }
        treeFrom (⟨place, change, items, branches, verbose⟩ :: opened) [] [] fuel
    | some ')' =>
      match opened with
      | [] => fail .groupUnopened place (place + 1)
      | g :: outer =>
        pass 1
        modify fun r => { r with verbose := g.verbose }
        treeFrom outer g.branches (.group g.change (groupTree branches items) :: g.before) fuel
    | some '|' =>
      pass 1
      treeFrom opened (Tree.ofReversed items :: branches) [] fuel
    | some '?' => treeFrom opened branches (← repeatLast items (signCounts 0 (some 1))) fuel
    | some '*' => treeFrom opened branches (← repeatLast items (signCounts 0 none)) fuel
    | some '+' => treeFrom opened branches (← repeatLast items (signCounts 1 none)) fuel
    | some '\x7b' => treeFrom opened branches (← repeatLast items counts) fuel
    | some c => treeFrom opened branches ((← simple c) :: items) fuel

/-- The tree of a written pattern. -/
def Tree.parse (pattern : List Char) : Except Mistake Tree :=
  Prod.fst <$> (treeFrom [] [] [] (pattern.length + 1)).run { rest := pattern }

end Highlight1C.Pattern
