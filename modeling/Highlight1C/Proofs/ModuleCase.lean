import Highlight1C.Proofs.LetterCase
import Highlight1C.Proofs.ModuleCutting

/-!
# Letter case in module code

Each recogniser finds the same on a text in small letters, written in small
letters (`operatorTail?_small`, `fraction?_small`), so the moves of the lexer
are the same (`codeMove_small`, `stringMove?_small`), and the lexer of module
code is blind to letter case (`blindToCase`).
-/

namespace Highlight1C

open Text

namespace ModuleWords

theorem classify_small (word : List Char) : classify (small word) = classify word :=
  Lexicon.classify_small lexicon word

theorem announcesName_small (word : List Char) : announcesName (small word) = announcesName word := by
  rw [announcesName, announcesName, lower_small]

end ModuleWords

namespace ModuleLexer

theorem isPair_small (c d : Char) : isPair (smallLetter c) (smallLetter d) = isPair c d := by
  have hbeq {e : Char} (he : isLetter e = false) (c : Char) : (smallLetter c == e) = (c == e) :=
    smallLetter_beq he c
  unfold isPair
  simp only [hbeq (e := '<') (by decide), hbeq (e := '>') (by decide), hbeq (e := '=') (by decide),
    hbeq (e := ':') (by decide)]

theorem operatorTail?_small (c : Char) (cs : List Char) :
    operatorTail? (smallLetter c) (small cs) = (operatorTail? c cs).map small := by
  have hop : operatorChars.contains (smallLetter c) = operatorChars.contains c :=
    smallLetter_invariant (p := operatorChars.contains) (by decide) c
  cases cs with
  | nil =>
    simp only [small_nil, operatorTail?, hop]
    split <;> rfl
  | cons d ds =>
    simp only [small_cons, operatorTail?, hop, isPair_small]
    split
    · rfl
    · split <;> rfl

theorem fraction?_small (text : List Char) :
    fraction? (small text) = (fraction? text).map small := by
  cases text with
  | nil => rfl
  | cons c cs =>
    have hc : smallLetter c = '.' ↔ c = '.' := smallLetter_eq_iff (by decide)
    rw [small_cons, fraction?_cons, fraction?_cons, takeWhile_small isDigit_smallLetter]
    simp only [hc, ne_eq, small_eq_nil]
    split <;> rfl

theorem map_token_small (kind : TokenKind) (c : Char) (more : List Char) (next : State) :
    (Move.token kind c more next).map smallLetter id =
      Move.token kind (smallLetter c) (small more) next :=
  Move.map_token smallLetter id kind c more next

theorem numberMove_small (c : Char) (cs : List Char) :
    numberMove (smallLetter c) (small cs) = (numberMove c cs).map smallLetter id := by
  have hrun := takeWhile_small isDigit_smallLetter cs
  unfold numberMove
  simp only [hrun, length_small, drop_small, fraction?_small]
  cases fraction? (cs.drop (cs.takeWhile Char.isDigit).length) with
  | some fraction =>
    simp only [Option.map_some, ← small_append]
    exact (map_token_small ..).symm
  | none => exact (map_token_small ..).symm

theorem codeMove_small (nameFollows : Bool) (c : Char) (cs : List Char) :
    codeMove nameFollows (smallLetter c) (small cs) =
      (codeMove nameFollows c cs).map smallLetter id := by
  have heq {d : Char} (hd : isLetter d = false) : smallLetter c = d ↔ c = d :=
    smallLetter_eq_iff hd
  have hhash := heq (d := '#') (by decide)
  have hamp := heq (d := '&') (by decide)
  have hslash := heq (d := '/') (by decide)
  have hquote := heq (d := quote) (by decide)
  have hpoint : (smallLetter c == '.') = (c == '.') := smallLetter_beq (by decide) c
  have hslashes := head?_small_eq_some (d := '/') (by decide) cs
  have hrun {p : Char → Bool} (hp : ∀ c, p (smallLetter c) = p c) := takeWhile_small hp cs
  unfold codeMove
  simp only [isSpace_smallLetter, isNameStart_smallLetter, isDigit_smallLetter, hhash, hamp, hslash,
    hquote, hpoint, hslashes, restOfLine_small, operatorTail?_small, hrun isSpace_smallLetter,
    hrun isWordChar_smallLetter, ne_eq, small_eq_nil]
  split
  · exact (map_token_small ..).symm
  split
  · exact (map_token_small ..).symm
  split
  · exact (map_token_small ..).symm
  split
  · exact (map_token_small ..).symm
  cases operatorTail? c cs with
  | some more => exact (map_token_small ..).symm
  | none =>
  simp only [Option.map_none]
  split
  · rw [← small_cons, ModuleWords.classify_small, ModuleWords.announcesName_small]
    exact (map_token_small ..).symm
  split
  · simp [Move.map]
  split
  · exact numberMove_small c cs
  · exact (map_token_small .error c [] _).symm

theorem stringMove?_small (c : Char) (cs : List Char) :
    stringMove? (smallLetter c) (small cs) = (stringMove? c cs).map (·.map smallLetter id) := by
  have hquote (c : Char) : smallLetter c = quote ↔ c = quote := smallLetter_eq_iff (by decide)
  have hdoubled := head?_small_eq_some (d := quote) (by decide) cs
  have hcontent (d : Char) : (smallLetter d != quote) = (d != quote) :=
    congrArg Bool.not (smallLetter_beq (by decide) d)
  have hrun : (small cs).takeWhile (· != quote) = small (cs.takeWhile (· != quote)) :=
    takeWhile_small hcontent cs
  unfold stringMove?
  simp only [hquote, hdoubled, hcontent, hrun]
  split
  · exact congrArg some (map_token_small ..).symm
  split
  · exact congrArg some (map_token_small .char c [quote] _).symm
  split
  · simp [Move.map]
  · rfl

/-- The lexer of module code is blind to letter case. -/
theorem blindToCase : lexer.BlindTo smallLetter id fun _ _ => True where
  start := rfl
  step state c cs move _ hs := by
    cases state with
    | code nameFollows =>
      cases hs
      exact congrArg some (codeMove_small nameFollows c cs)
    | string =>
      have hs : stringMove? c cs = some move := hs
      exact (stringMove?_small c cs).trans (congrArg (Option.map _) hs)
  proper_step _ _ _ _ _ _ := trivial
  flush _ := rfl
  mode _ := rfl

end ModuleLexer

end Highlight1C
