import Highlight1C.Pattern.Parser

/-!
# The meaning of written patterns

`Pattern.parse` gives the pattern that a written one stands for. Flags hold from where they are
changed to the end of their group, also in the branches of a choice that follow.

Characters are those of Unicode unless the flag for it is cleared. Classes by letter, properties and
letters of either case are known below U+0080 only: with the flag, they are refused, and so are
edges of words, after everything else has been looked at. Without the flag, a pattern must not ask
for parts of characters.
-/

namespace Highlight1C.Pattern

/-- The flags that hold at some point of a pattern. -/
structure Flags where
  anyCase : Bool := false
  lines : Bool := false
  dotAll : Bool := false
  wide : Bool := true
  returns : Bool := false
  deriving DecidableEq, Repr

/-- The flags after a change. -/
def Flags.change (f : Flags) (c : FlagChange) : Flags where
  anyCase := (c.value? .anyCase).getD f.anyCase
  lines := (c.value? .lines).getD f.lines
  dotAll := (c.value? .dotAll).getD f.dotAll
  wide := (c.value? .wide).getD f.wide
  returns := (c.value? .returns).getD f.returns

/-- A mistake at a stretch. -/
def refuse {α : Type} (flaw : Flaw) (s : Stretch) : Except Mistake α :=
  .error ⟨flaw, s, none⟩

/-! ## Sets of characters -/

/-- Whether a set has a member from U+0080 to U+00FF, which as a byte is only a part of a character.
-/
def hasPart (s : CharSet) : Bool :=
  (List.range 128).any fun n => s.contains (Char.ofNat (128 + n))

/-- A set as the flags and a negation change it. -/
def adjust (f : Flags) (stretch : Stretch) (negated : Bool) (s : CharSet) :
    Except Mistake CharSet := do
  let s ←
    if !f.anyCase || s = .nothing then pure s
    else if f.wide then refuse .caseUnavailable stretch
    else pure (.anyCase s)
  let s := if negated then .others s else s
  if !f.wide && hasPart s then refuse .notText stretch
  return s

/-- A character of a set. -/
def member (f : Flags) (l : Literal) : Except Mistake Char :=
  if f.wide || l.char.toNat < 0x80 then .ok l.char
  else if l.isByte then refuse .notText l.stretch
  else refuse .charNotAllowed l.stretch

/-- The set that a written one stands for. -/
def SetTree.meaning (f : Flags) : SetTree → Except Mistake CharSet
  | .nothing => .ok .nothing
  | .char l => return .only (← member f l)
  | .range first last => return .range (← member f first) (← member f last)
  | .named stretch negated members => adjust f stretch negated (.ofRanges members)
  | .letter stretch negated kind =>
    if f.wide then refuse .classUnavailable stretch
    else return if negated then .others kind.narrow else kind.narrow
  | .property stretch => refuse (if f.wide then .propertyUnknown else .charNotAllowed) stretch
  | .bracket stretch negated body => do adjust f stretch negated (← body.meaning f)
  | .combine operation a b => do
    let a ← a.meaning f
    let b ← b.meaning f
    return match operation with
      | .union => .union a b
      | .inter => .inter a b
      | .diff => .diff a b
      | .symmDiff => .symmDiff a b

/-- The set that a written one stands for outside of brackets, where a class by letter stands alone.
-/
def SetTree.whole (f : Flags) (s : SetTree) : Except Mistake CharSet := do
  let set ← s.meaning f
  match s with
  | .letter stretch _ _ => if hasPart set then refuse .notText stretch else return set
  | _ => return set

/-! ## Patterns -/

/-- The set that the sign for any character stands for. -/
def anyChar (f : Flags) : CharSet :=
  if f.dotAll then .others .nothing
  else if f.returns then .others (.union (.only '\n') (.only '\r'))
  else .others (.only '\n')

/-- The condition that a mark stands for. -/
def Mark.meaning (f : Flags) : Mark → Boundary
  | .lineStart => if f.lines then .lineStart f.returns else .textStart
  | .lineStop => if f.lines then .lineStop f.returns else .textStop
  | .textStart => .textStart
  | .textStop => .textStop
  | .edge e => .word e

/-- The set of a character outside of brackets. -/
def literalSet (f : Flags) (l : Literal) : Except Mistake CharSet :=
  if !f.wide && l.isByte && 0x80 ≤ l.char.toNat then refuse .notText l.stretch
  else if !f.anyCase then .ok (.only l.char)
  else if f.wide then refuse .caseUnavailable l.stretch
  else .ok (.anyCase (.only l.char))

/-- What is known while the meaning of a pattern is found. -/
structure Situation where
  flags : Flags := {}
  /-- Whether there was an edge of a word of Unicode. -/
  wideEdge : Bool := false
  deriving DecidableEq, Repr

/-- The pattern that a written one stands for, and what is known after it. -/
def Tree.meaning (s : Situation) : Tree → Except Mistake (Pattern × Situation)
  | .empty => .ok (.empty, s)
  | .flags change => .ok (.empty, { s with flags := s.flags.change change })
  | .char l => return (.one (← literalSet s.flags l), s)
  | .dot stretch =>
    if s.flags.wide then .ok (.one (anyChar s.flags), s) else refuse .notText stretch
  | .mark m =>
    let wide := match m with
      | .edge _ => s.flags.wide
      | _ => false
    .ok (.place (m.meaning s.flags), { s with wideEdge := s.wideEdge || wide })
  | .set chars => return (.one (← chars.whole s.flags), s)
  | .repeated t least most => do
    let (p, s) ← t.meaning s
    return (.repeated p least most, s)
  | .group change t => do
    let (p, inner) ← t.meaning { s with flags := s.flags.change change }
    return (p, { inner with flags := s.flags })
  | .seq a b => do
    let (p, s) ← a.meaning s
    let (q, s) ← b.meaning s
    return (.seq p q, s)
  | .either a b => do
    let (p, s) ← a.meaning s
    let (q, s) ← b.meaning s
    return (.either p q, s)

/-- What is said about edges of words of Unicode, which are not known. -/
def wideEdgeMessage : String := "error building NFA"

/-- The pattern that is written in a text, or what is wrong with it. -/
def parse (text : List Char) : Except String Pattern := do
  let (p, s) ← (Tree.parse text >>= Tree.meaning {}).mapError (·.report text)
  if s.wideEdge then .error wideEdgeMessage else return p

end Highlight1C.Pattern
