import Highlight1C.Text.CaseTable

/-!
# Lower case

`lower` gives the lower-case form of a text by the full rules of Unicode, without regard to language:
each character on its own, except that the dotted capital I becomes two characters and that a capital
sigma at the end of a word becomes the final form.
-/

namespace Highlight1C.Text

/-- The code point of the lower-case form, looked up among runs of capital letters. -/
def lowerCode (n : Nat) : List CapitalRun → Nat
  | [] => n
  | run :: rest =>
    if n < run.first then n
    else if n ≤ run.last && (n - run.first) % run.step == 0 then run.lower + (n - run.first)
    else lowerCode n rest

/-- The lower-case form of a character on its own. -/
def lowerChar (c : Char) : Char :=
  if c.toNat < 0x80 then c.toLower else Char.ofNat (lowerCode c.toNat capitalRuns)

/-- Whether the first character that counts for case is a letter with case. -/
def meetsCased (text : List Char) : Bool :=
  match text.dropWhile (fun c => caseIgnorableRanges.contains c.toNat) with
  | [] => false
  | c :: _ => casedRanges.contains c.toNat

/-- Lower-cases the rest of a text, with what lies before it in `before`, last character first, and
what is done in `done`, also last first. -/
def lowerFrom (before done : List Char) : List Char → List Char
  | [] => done.reverse
  | c :: rest =>
    let done :=
      if c = 'Σ' then (if meetsCased before && !meetsCased rest then 'ς' else 'σ') :: done
      else if c = 'İ' then '\u0307' :: 'i' :: done
      else lowerChar c :: done
    lowerFrom (c :: before) done rest

/-- The lower-case form of a text. -/
def lower (text : List Char) : List Char :=
  lowerFrom [] [] text

/-- The lower-case form of a text, with the letters below U+0080 changed only. -/
def lowerAscii (text : List Char) : List Char :=
  text.map Char.toLower

end Highlight1C.Text
