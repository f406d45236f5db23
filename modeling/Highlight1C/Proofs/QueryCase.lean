import Highlight1C.Proofs.ModuleCase
import Highlight1C.Proofs.QueryErrors

/-!
# Letter case in queries

Each recogniser finds the same on a text in small letters, written in small
letters, since whatever tests for a certain letter accepts both its cases. A
backslash is the exception: the constant `\N` and the escapes `\u` and `\U` are
told by case. So the lexer of queries is blind to letter case where there is no
backslash (`blindToCase`).

In both languages, then, texts that differ in case only have the same tokens in
the same places (`tokenize_sameButCase`).
-/

namespace Highlight1C

open Text

namespace QueryLexer

/-! ## Recognisers -/

theorem isQuote_smallLetter (c : Char) : isQuote (smallLetter c) = isQuote c :=
  smallLetter_invariant (by decide) c

theorem lineComment?_small (c : Char) (cs : List Char) :
    lineComment? (smallLetter c) (small cs) = (lineComment? c cs).map small := by
  have hhash : smallLetter c = '#' ↔ c = '#' := smallLetter_eq_iff (by decide)
  have hslash : smallLetter c = '/' ↔ c = '/' := smallLetter_eq_iff (by decide)
  have hslashes := head?_small_eq_some (d := '/') (by decide) cs
  simp only [lineComment?, hhash, hslash, hslashes, restOfLine_small]
  split <;> rfl

theorem throughClose_small (text : List Char) :
    throughClose (small text) = small (throughClose text) := by
  induction text with
  | nil => rfl
  | cons c cs ih =>
    have hstar : smallLetter c = '*' ↔ c = '*' := smallLetter_eq_iff (by decide)
    have hslash := head?_small_eq_some (d := '/') (by decide) cs
    rw [small_cons, throughClose_cons, throughClose_cons, ih]
    simp only [hstar, hslash]
    split <;> rfl

theorem blockComment?_small (c : Char) (cs : List Char) :
    blockComment? (smallLetter c) (small cs) =
      (blockComment? c cs).map fun (kind, more) => (kind, small more) := by
  have hslash : smallLetter c = '/' ↔ c = '/' := smallLetter_eq_iff (by decide)
  have hstar := head?_small_eq_some (d := '*') (by decide) cs
  have hmark := head?_small_eq_some (d := '!') (by decide) cs.tail
  rw [blockComment?_eq, blockComment?_eq]
  simp only [hslash, hstar, tail_small, hmark, throughClose_small]
  split <;> rfl

theorem isOperator_small (c : Char) (cs : List Char) :
    isOperator (smallLetter c) (small cs) = isOperator c cs := by
  have hop : operatorChars.contains (smallLetter c) = operatorChars.contains c :=
    smallLetter_invariant (p := operatorChars.contains) (by decide) c
  have hnumeric : numericOperatorChars.contains (smallLetter c) = numericOperatorChars.contains c :=
    smallLetter_invariant (p := numericOperatorChars.contains) (by decide) c
  rw [isOperator, isOperator, hop, hnumeric, any_head?_small isDigit_smallLetter]

/-- A quote is no letter. -/
theorem smallLetter_of_isQuote {c : Char} (h : isQuote c = true) : smallLetter c = c := by
  have hall : ∀ q ∈ quotes, isLetter q = false := forall_mem_of_all (by decide)
  exact smallLetter_of_not_isLetter (hall c (List.contains_iff_mem.mp h))

theorem quoteAt?_small (text : List Char) : quoteAt? (small text) = quoteAt? text := by
  cases text with
  | nil => rfl
  | cons c cs => exact smallLetter_invariant (p := fun c => (some c).filter isQuote) (by decide) c

theorem stringOpening?_small (c : Char) (cs : List Char) :
    stringOpening? (smallLetter c) (small cs) =
      (stringOpening? c cs).map fun (modifier, quote) => (small modifier, quote) := by
  have hmodifier : modifierLetters.contains (smallLetter c) = modifierLetters.contains c :=
    smallLetter_invariant (p := modifierLetters.contains) (by decide) c
  have hunderscore : smallLetter c = '_' ↔ c = '_' := smallLetter_eq_iff (by decide)
  have hname : (small cs).takeWhile isAsciiWordChar = small (cs.takeWhile isAsciiWordChar) :=
    takeWhile_small (smallLetter_invariant (by decide)) cs
  simp only [stringOpening?, isQuote_smallLetter, hmodifier, hunderscore, hname, length_small,
    drop_small, quoteAt?_small, List.isEmpty_iff, small_eq_nil]
  split
  · next h => simp [smallLetter_of_isQuote h]
  split
  · rw [Option.map_map]
    rfl
  split
  · split
    · rfl
    · rw [Option.map_map]
      rfl
  · rfl

theorem wordTail?_small (c : Char) (cs : List Char) :
    wordTail? (smallLetter c) (small cs) = (wordTail? c cs).map small := by
  have hat : smallLetter c = '@' ↔ c = '@' := smallLetter_eq_iff (by decide)
  have hrun (text : List Char) := takeWhile_small isWordChar_smallLetter text
  simp only [wordTail?, hat, isNameStart_smallLetter, hrun]
  split
  · cases cs with
    | nil => rfl
    | cons d ds =>
      simp only [small_cons, isNameStart_smallLetter, hrun]
      split <;> rfl
  · split <;> rfl

/-! ## Numbers -/

theorem hexTail?_small (c : Char) (cs : List Char) :
    hexTail? (smallLetter c) (small cs) = (hexTail? c cs).map small := by
  have hzero : smallLetter c = '0' ↔ c = '0' := smallLetter_eq_iff (by decide)
  cases cs with
  | nil => rfl
  | cons x ds =>
    have hx : (smallLetter x = 'x' ∨ smallLetter x = 'X') ↔ (x = 'x' ∨ x = 'X') :=
      smallLetter_iff (p := fun x => x = 'x' ∨ x = 'X') (by decide) x
    have hrun : (small ds).takeWhile isHexDigit = small (ds.takeWhile isHexDigit) :=
      takeWhile_small (smallLetter_invariant (by decide)) ds
    simp only [small_cons, hexTail?, hzero, hx, hrun, small_eq_nil]
    split
    · split <;> rfl
    · rfl

theorem octalTail?_small (c : Char) (cs : List Char) :
    octalTail? (smallLetter c) (small cs) = (octalTail? c cs).map small := by
  have hzero : smallLetter c = '0' ↔ c = '0' := smallLetter_eq_iff (by decide)
  have hrun : (small cs).takeWhile isOctalDigit = small (cs.takeWhile isOctalDigit) :=
    takeWhile_small (smallLetter_invariant (by decide)) cs
  have hmark (text : List Char) : (small text).head?.any ('8' :: '9' :: fractionMarks).contains =
      text.head?.any ('8' :: '9' :: fractionMarks).contains :=
    any_head?_small (smallLetter_invariant (by decide)) text
  simp only [octalTail?, hzero, hrun, small_eq_nil, length_small, drop_small, hmark]
  split
  · split <;> rfl
  · rfl

theorem exponent?_small (text : List Char) :
    exponent? (small text) = (exponent? text).map small := by
  cases text with
  | nil => rfl
  | cons e rest =>
    have he : (smallLetter e = 'e' ∨ smallLetter e = 'E') ↔ (e = 'e' ∨ e = 'E') :=
      smallLetter_iff (p := fun e => e = 'e' ∨ e = 'E') (by decide) e
    have hsign : ((small rest).take 1).filter isSign = small ((rest.take 1).filter isSign) := by
      have hcomp : isSign ∘ smallLetter = isSign :=
        funext (smallLetter_invariant (by decide))
      rw [take_small, small, List.filter_map, hcomp]
      rfl
    simp only [small_cons, exponent?, hsign, he, length_small, drop_small,
      takeWhile_small isDigit_smallLetter, ne_eq, small_eq_nil]
    split
    · rw [← small_cons, ← small_append]
      rfl
    · rfl

theorem fraction?_small (whole rest : List Char) :
    fraction? (small whole) (small rest) = (fraction? whole rest).map small := by
  cases rest with
  | nil => rfl
  | cons f rest =>
    have hpoint : smallLetter f = '.' ↔ f = '.' := smallLetter_eq_iff (by decide)
    have hf : (smallLetter f = 'f' ∨ smallLetter f = 'F') ↔ (f = 'f' ∨ f = 'F') :=
      smallLetter_iff (p := fun f => f = 'f' ∨ f = 'F') (by decide) f
    rw [small_cons, fraction?_cons, fraction?_cons, ← small_cons]
    simp only [hpoint, hf, takeWhile_small isDigit_smallLetter, small_eq_nil, length_small,
      drop_small, exponent?_small]
    split
    · next hc =>
      subst hc
      split
      · rfl
      · cases exponent? (rest.drop (rest.takeWhile Char.isDigit).length) <;>
          simp [smallLetter_of_not_isLetter (c := '.') (by decide)]
    split
    · rfl
    split
    · simp
    · cases exponent? (f :: rest) <;> simp

theorem decimal?_small (text : List Char) :
    decimal? (small text) = (decimal? text).map fun (kind, number) => (kind, small number) := by
  have hmark (rest : List Char) :
      (small rest).head?.any fractionMarks.contains = rest.head?.any fractionMarks.contains :=
    any_head?_small (smallLetter_invariant (by decide)) rest
  simp only [decimal?, takeWhile_small isDigit_smallLetter, length_small, drop_small, hmark, ne_eq,
    small_eq_nil, fraction?_small]
  split
  · rfl
  · rw [Option.map_map, Option.map_map]
    rfl

theorem decimalTail?_small (c : Char) (cs : List Char) :
    decimalTail? (smallLetter c) (small cs) =
      (decimalTail? c cs).map fun (kind, more) => (kind, small more) := by
  have hsign : isSign (smallLetter c) = isSign c := smallLetter_invariant (by decide) c
  simp only [decimalTail?, hsign, ← small_cons, decimal?_small]
  split
  · rfl
  · rw [Option.map_map, Option.map_map]
    refine congrArg (Option.map · _) (funext fun number => ?_)
    exact congrArg (Prod.mk number.1) (tail_small number.2)

/-! ## Words -/

theorem wordKind_small (nameExpected : Bool) (word : List Char) :
    wordKind nameExpected (small word) = wordKind nameExpected word := by
  have hat := head?_small_eq_some (d := '@') (by decide) word
  have hclass : QueryWords.classify (small word) = QueryWords.classify word :=
    Lexicon.classify_small QueryWords.lexicon word
  simp only [wordKind, hat, hclass]

/-! ## Moves -/

/-- A state with the content that it holds back in small letters. -/
def smallState : State → State
  | .code nameExpected => .code nameExpected
  | .string nameExpected quote held => .string nameExpected quote (small held)

theorem map_token_small (kind : TokenKind) (c : Char) (more : List Char) (next : Bool) :
    (Move.token kind c more (State.code next)).map smallLetter smallState =
      Move.token kind (smallLetter c) (small more) (.code next) :=
  Move.map_token smallLetter smallState kind c more (.code next)

theorem openingMove_small (nameExpected : Bool) {modifier : List Char} {quote : Char}
    (hquote : isQuote quote = true) :
    openingMove nameExpected (small modifier) quote =
      (openingMove nameExpected modifier quote).map smallLetter smallState := by
  have hsame := smallLetter_of_isQuote hquote
  simp only [openingMove, small_eq_nil, length_small]
  split
  · simp [Move.map, smallState, hsame]
  · simp [Move.map, smallState, hsame, small]

theorem numberMove_small (nameExpected : Bool) {c : Char} (hc : c ≠ '\\') (cs : List Char) :
    numberMove nameExpected (smallLetter c) (small cs) =
      (numberMove nameExpected c cs).map smallLetter smallState := by
  have hback : smallLetter c ≠ '\\' := fun h => hc ((smallLetter_eq_iff (by decide)).mp h)
  simp only [numberMove, hexTail?_small, octalTail?_small, decimalTail?_small]
  cases hexTail? c cs with
  | some more => exact (map_token_small ..).symm
  | none =>
  cases octalTail? c cs with
  | some more => exact (map_token_small ..).symm
  | none =>
  cases decimalTail? c cs with
  | some number => exact (map_token_small ..).symm
  | none =>
  simp only [Option.map_none, hc, hback, false_and, if_false]
  exact (map_token_small .error c [] _).symm

theorem codeMove_small (nameExpected : Bool) {c : Char} (hc : c ≠ '\\') (cs : List Char) :
    codeMove nameExpected (smallLetter c) (small cs) =
      (codeMove nameExpected c cs).map smallLetter smallState := by
  have hback : smallLetter c ≠ '\\' := fun h => hc ((smallLetter_eq_iff (by decide)).mp h)
  have hpoint : (smallLetter c == '.') = (c == '.') := smallLetter_beq (by decide) c
  simp only [codeMove, isSpace_smallLetter, takeWhile_small isSpace_smallLetter, hc, hback, false_and,
    if_false, lineComment?_small, blockComment?_small, isOperator_small, hpoint,
    any_head?_small isNameStart_smallLetter, stringOpening?_small, wordTail?_small,
    numberMove_small nameExpected hc]
  split
  · exact (map_token_small ..).symm
  cases lineComment? c cs with
  | some more => exact (map_token_small ..).symm
  | none =>
  cases blockComment? c cs with
  | some comment => exact (map_token_small ..).symm
  | none =>
  simp only [Option.map_none]
  split
  · exact (map_token_small .operator c [] _).symm
  cases hopening : stringOpening? c cs with
  | some opening => exact openingMove_small nameExpected (stringOpening?_isPrefix hopening).2
  | none =>
  cases wordTail? c cs with
  | some more =>
    simp only [Option.map_none, Option.map_some, ← small_cons, wordKind_small]
    exact (map_token_small ..).symm
  | none => rfl

theorem release_small (held : List Char) :
    release (small held) = mapTexts smallLetter (release held) := by
  simp only [release, small_eq_nil]
  split
  · rfl
  · simp [small, List.map_reverse]

theorem isPlain_smallLetter (c : Char) : isPlain (smallLetter c) = isPlain c :=
  smallLetter_invariant (by decide) c

/-- Within a string, the only rules that tell letters by case are those for
escapes. -/
theorem stringMove?_small (nameExpected : Bool) {quote c : Char} (hquote : isQuote quote = true)
    (hc : c ≠ '\\') (held cs : List Char) :
    stringMove? nameExpected quote (small held) (smallLetter c) (small cs) =
      (stringMove? nameExpected quote held c cs).map (Move.map smallLetter smallState) := by
  have hletter : isLetter quote = false := by
    have hall : ∀ q ∈ quotes, isLetter q = false := forall_mem_of_all (by decide)
    exact hall quote (List.contains_iff_mem.mp hquote)
  have hends : smallLetter c = quote ↔ c = quote := smallLetter_eq_iff hletter
  have hdoubled := head?_small_eq_some hletter cs
  have hrun : (small cs).takeWhile (fun d => d != '\\' && !isQuote d) =
      small (cs.takeWhile fun d => d != '\\' && !isQuote d) :=
    takeWhile_small isPlain_smallLetter cs
  have hreverse (text : List Char) : (small text).reverse = small text.reverse :=
    List.map_reverse.symm
  -- what is neither plain nor a quote would be a backslash
  have hother : isPlain c = false → isQuote c = true := by
    intro hplain
    simpa [isPlain, hc] using hplain
  show (if isPlain (smallLetter c) then _ else _) =
    Option.map _ (if isPlain c then _ else _)
  rw [isPlain_smallLetter]
  simp only [hends, hdoubled, isQuote_smallLetter, hrun, hreverse, length_small, release_small]
  split
  · simp [Move.map, smallState]
  next hplain =>
  have hplain : isPlain c = false := Bool.not_eq_true _ ▸ hplain
  split
  · next h =>
    subst h
    split
    · simp [Move.map, smallState, smallLetter_of_isQuote hquote]
    · simp [Move.map, smallState]
  · rw [if_pos (hother hplain), if_pos (hother hplain)]
    simp [Move.map, smallState]

/-- The lexer of queries is blind to letter case where there is no backslash. -/
theorem blindToCase :
    lexer.BlindTo smallLetter smallState fun state text => state.Quoted ∧ '\\' ∉ text where
  start := rfl
  step state c cs move hp hs := by
    obtain ⟨hquoted, hback⟩ := hp
    have hc : c ≠ '\\' := fun h => hback (h ▸ List.mem_cons_self)
    cases state with
    | code nameExpected =>
      cases hs
      exact congrArg some (codeMove_small nameExpected hc cs)
    | string nameExpected quote held =>
      have hmove := stringMove?_small nameExpected hquoted hc held cs
      exact hmove.trans (congrArg (Option.map _) hs)
  proper_step state c cs move hp hs := by
    obtain ⟨hquoted, hback⟩ := hp
    refine ⟨quoted_of_step hs hquoted, fun h => hback ?_⟩
    exact List.mem_cons_of_mem _ (List.mem_of_mem_drop h)
  flush
    | .code _ => rfl
    | .string _ _ held => release_small held
  mode
    | .code _ => rfl
    | .string _ _ _ => rfl

end QueryLexer

/-! ## Streams -/

/-- Where letters can change their case: in module code everywhere, in queries
where there is no backslash. -/
def Language.CaseFree : Language → List Char → Prop
  | .module, _ => True
  | .query, source => '\\' ∉ source

theorem Language.caseFree_small {language : Language} {source : List Char} :
    language.CaseFree (small source) ↔ language.CaseFree source := by
  cases language with
  | module => exact Iff.rfl
  | query =>
    refine not_congr ⟨fun h => ?_, fun h => ?_⟩
    · obtain ⟨c, hc, hback⟩ := List.mem_map.mp h
      rwa [(smallLetter_eq_iff (by decide)).mp hback] at hc
    · exact List.mem_map.mpr ⟨'\\', h, rfl⟩

theorem Language.events_small {language : Language} {source : List Char}
    (h : language.CaseFree source) :
    language.events (small source) = mapTexts smallLetter (language.events source) := by
  cases language with
  | module => exact ModuleLexer.blindToCase.eventsFrom_map ModuleLexer.lossless trivial
  | query =>
    have hstart : QueryLexer.lexer.start.Quoted := trivial
    exact QueryLexer.blindToCase.eventsFrom_map QueryLexer.lossless ⟨hstart, h⟩

theorem Language.outline_stream_small {language : Language} {source : List Char}
    (h : language.CaseFree source) :
    (language.stream (small source)).outline = (language.stream source).outline := by
  unfold stream
  rw [events_small h]
  exact outline_placeFrom [] _

/-- Two sources of at most 2³² − 2 characters that differ in the case of letters
only have streams that differ in the texts of tokens only: the markers, and the
kinds and the places of the tokens, are the same. In queries, this is so if
there is no backslash. -/
theorem tokenize_sameButCase (language : Language) {source source' : List Char}
    (hsame : SameButCase source source') (hsize : source.length ≤ sourceBound)
    (hback : language = .query → '\\' ∉ source) :
    ∃ stream stream', tokenize language source = .ok (.ok stream) ∧
      tokenize language source' = .ok (.ok stream') ∧ stream.outline = stream'.outline := by
  have hlength : source'.length = source.length := by
    rw [← length_small source', ← hsame, length_small]
  have hfree : language.CaseFree source := by
    cases language with
    | module => trivial
    | query => exact hback rfl
  have hfree' : language.CaseFree source' := by
    rw [← Language.caseFree_small, ← hsame]
    exact Language.caseFree_small.mpr hfree
  refine ⟨_, _, tokenize_eq hsize, tokenize_eq (hlength ▸ hsize), ?_⟩
  calc (language.stream source).outline
      = (language.stream (small source)).outline := (Language.outline_stream_small hfree).symm
    _ = (language.stream (small source')).outline := by rw [hsame]
    _ = (language.stream source').outline := Language.outline_stream_small hfree'

/-- A string behind a letter, a hexadecimal number and a fraction, in both
cases. -/
theorem tokenize_sameButCase_prefixes :
    SameButCase "X'Ё', 0XfF, 1E5".toList "x'ё', 0xFF, 1e5".toList ∧
    ∃ stream stream', tokenize .query "X'Ё', 0XfF, 1E5".toList = .ok (.ok stream) ∧
      tokenize .query "x'ё', 0xFF, 1e5".toList = .ok (.ok stream') ∧
      stream.outline = stream'.outline := by
  have hsame : SameButCase "X'Ё', 0XfF, 1E5".toList
      "x'ё', 0xFF, 1e5".toList := by
    show small _ = small _
    decide
  exact ⟨hsame, tokenize_sameButCase .query hsame (by decide) fun _ => by decide⟩

end Highlight1C
