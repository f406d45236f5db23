import Highlight1C.Proofs.QueryNames

/-!
# Errors in queries

A query has an error where nothing begins: each of its error tokens is one
character, and `Cause` lists why nothing begins with it. A character that no
rule is for, an `@` or a backslash without what has to follow it, and a
backslash at the end of the source within a string are one error each. The
digits before a point or the letter of an exponent that nothing comes of
(`Malformed`) are an error each, and so is a sign before them.

Outside strings the causes are what the failures of all recognisers come to
(`CodeRule.cause`, `Cause.Holds.codeMove_eq`). A move writes an error exactly
if there is a cause for it (`cause_of_step`, `Cause.Holds.step_eq`), so the
errors of a query are the characters for which there is one
(`tokenize_errors`).
-/

namespace Highlight1C

open Text

namespace QueryLexer

/-! ## Causes -/

/-- Whether a text begins with a digit, or with a sign and a digit. -/
def beginsSigned (text : List Char) : Bool :=
  text.head?.any Char.isDigit || (text.head?.any isSign && text.tail.head?.any Char.isDigit)

/-- What follows the digits of a number that is none: a point without a digit
behind it, or the letter of an exponent without digits. -/
inductive Malformed : List Char → Prop where
  | point {more : List Char} (h : more.head?.any Char.isDigit = false) : Malformed ('.' :: more)
  | exponent {e : Char} {more : List Char} (he : e = 'e' ∨ e = 'E') (h : beginsSigned more = false) :
    Malformed (e :: more)

/-- A character that is neither a digit nor a sign, and with which nothing
begins outside strings except with a certain next character. -/
structure IsBare (c : Char) : Prop where
  space : isSpace c = false
  name : isNameStart c = false
  digit : c.isDigit = false
  quote : isQuote c = false
  comment : c ≠ '#'
  operator : c ∉ operatorChars ++ numericOperatorChars

/-- Why a character is an error. -/
inductive Cause where
  /-- No rule is for it. -/
  | stray
  /-- It is an `@`, and there is no word behind it. -/
  | atSign
  /-- It is a backslash, and what it can stand before is not behind it. -/
  | backslash
  /-- It belongs to the digits of a malformed number, or is the sign before
  them. -/
  | number
  /-- It is a backslash of a string, and the source ends behind it. -/
  | ending
  deriving DecidableEq, Repr

/-- A cause is there at the character `c` in front of the text `cs`. -/
inductive Cause.Holds : Cause → Mode → Char → List Char → Prop where
  | stray {c : Char} {cs : List Char} (hc : IsBare c) (hat : c ≠ '@') (hback : c ≠ '\\') :
    Holds .stray .initial c cs
  | atSign {cs : List Char} (h : cs.head?.any isNameStart = false) : Holds .atSign .initial '@' cs
  | backslash {cs : List Char} (hline : cs.head? ≠ some '\n') (hconstant : cs.head? ≠ some 'N') :
    Holds .backslash .initial '\\' cs
  | number {c : Char} {cs : List Char}
    (hc : c.isDigit = true ∨ isSign c = true ∧ cs.head?.any Char.isDigit = true)
    (h : Malformed (cs.drop (cs.takeWhile Char.isDigit).length)) : Holds .number .initial c cs
  | ending : Holds .ending .inString '\\' []

/-- The cause that can be there at a character. -/
def Cause.of : Mode → Char → Cause
  | .inString, _ => .ending
  | .initial, c =>
    if c = '@' then .atSign
    else if c = '\\' then .backslash
    else if c.isDigit || isSign c then .number
    else .stray

theorem IsBare.not_isSign {c : Char} (h : IsBare c) : isSign c = false := by
  cases hsign : isSign c with
  | false => rfl
  | true => exact absurd (List.mem_append_right _ (mem_numericOperatorChars hsign)) h.operator

/-- A character has at most one cause. -/
theorem Cause.Holds.eq_of {cause : Cause} {m : Mode} {c : Char} {cs : List Char}
    (h : cause.Holds m c cs) : cause = Cause.of m c := by
  cases h with
  | stray hc hat hback => simp [Cause.of, hat, hback, hc.digit, hc.not_isSign]
  | atSign => rfl
  | backslash => rfl
  | number hc _ =>
    have hclass : ∀ d ∈ digits ++ numericOperatorChars, d ≠ '@' ∧ d ≠ '\\' :=
      forall_mem_of_all (by decide)
    have hnumeric : c.isDigit = true ∨ isSign c = true := hc.imp_right And.left
    obtain ⟨hat, hback⟩ := hclass c (mem_numeric hnumeric)
    rw [Cause.of, if_neg hat, if_neg hback, if_pos ((Bool.or_eq_true _ _).mpr hnumeric)]
  | ending => rfl

/-! ## Malformed numbers -/

/-- The letter of an exponent begins none if no digits follow it, a sign
aside. -/
theorem exponent?_eq_none_iff {e : Char} (he : e = 'e' ∨ e = 'E') (more : List Char) :
    exponent? (e :: more) = none ↔ beginsSigned more = false := by
  have hiff : exponent? (e :: more) = none ↔
      (more.drop ((more.take 1).filter isSign).length).takeWhile Char.isDigit = [] := by
    simp [exponent?, he]
  rw [hiff, takeWhile_eq_nil_iff]
  cases more with
  | nil => exact iff_of_true rfl rfl
  | cons s more =>
    by_cases hs : isSign s = true
    · have hdigit : s.isDigit = false := by
        cases hd : s.isDigit with
        | false => rfl
        | true => cases hs.symm.trans (not_isSign_of_isDigit hd)
      simp [beginsSigned, hs, hdigit]
    · simp [beginsSigned, hs]

/-- A number is malformed if a mark of a fraction follows its digits that
begins none. -/
theorem stray_iff_malformed {rest : List Char} : Stray rest ↔ Malformed rest := by
  constructor
  · intro h
    obtain ⟨mark, more, rfl, hmark⟩ := h.exists_mark
    have hnone := h.noFraction ['0']
    rw [fraction?_cons] at hnone
    split at hnone
    · next hpoint =>
      subst hpoint
      refine .point (takeWhile_eq_nil_iff.mp ?_)
      exact Decidable.byContradiction fun hdigits => by simp [hdigits] at hnone
    next hpoint =>
    rw [if_neg (List.cons_ne_nil _ _)] at hnone
    split at hnone
    · cases hnone
    · next hclosing =>
      have hletter : mark = 'e' ∨ mark = 'E' := by
        simpa [fractionMarks, hpoint, not_or.mp hclosing] using hmark
      exact .exponent hletter ((exponent?_eq_none_iff hletter more).mp (Option.map_eq_none_iff.mp hnone))
  · intro h
    cases h with
    | point h =>
      refine ⟨rfl, fun whole => ?_⟩
      rw [fraction?_cons, if_pos rfl, if_pos (takeWhile_eq_nil_iff.mpr h)]
    | @exponent e more he h =>
      have hclass : ∀ d ∈ ['e', 'E'], fractionMarks.contains d = true ∧ d ≠ '.' ∧
          ¬ (d = 'f' ∨ d = 'F') := forall_mem_of_all (by decide)
      obtain ⟨hmark, hpoint, hclosing⟩ := hclass e (by simpa using he)
      refine ⟨hmark, fun whole => ?_⟩
      rw [fraction?_cons, if_neg hpoint, if_neg hclosing, (exponent?_eq_none_iff he more).mpr h]
      split
      · rfl
      · rfl

/-! ## Moves outside strings -/

/-- A sign or point that is no operator stands before a digit. -/
theorem any_isDigit_of_not_isOperator {c : Char} {cs : List Char} (hc : c ∈ numericOperatorChars)
    (hop : isOperator c cs = false) : cs.head?.any Char.isDigit = true := by
  simp only [isOperator, Bool.or_eq_false_iff, List.contains_iff_mem.mpr hc, Bool.true_and] at hop
  simpa using hop.2

/-- A character with which no recogniser begins anything is bare, if it is
neither a digit nor a sign. -/
theorem isBare_of_none {c : Char} {cs : List Char} (hspace : isSpace c = false)
    (hline : lineComment? c cs = none) (hop : isOperator c cs = false)
    (hopening : stringOpening? c cs = none) (hword : wordTail? c cs = none)
    (hdecimal : decimalTail? c cs = none) (hnumeric : ¬ (c.isDigit = true ∨ isSign c = true)) :
    IsBare c where
  space := hspace
  name := (Bool.not_eq_true _).mp fun hname => wordTail?_ne_none hname cs hword
  digit := (Bool.not_eq_true _).mp fun hdigit => hnumeric (.inl hdigit)
  quote := by
    refine (Bool.not_eq_true _).mp fun hquote => ?_
    rw [stringOpening?, if_pos hquote] at hopening
    cases hopening
  comment := by
    intro hhash
    rw [lineComment?, if_pos (.inl hhash)] at hline
    cases hline
  operator := by
    intro hmem
    rcases List.mem_append.mp hmem with hmem | hmem
    · simp [isOperator, hmem] at hop
    · -- what is left is a point: one that is no operator begins a fraction
      have hkind : ∀ d ∈ numericOperatorChars, isSign d = true ∨ d = '.' :=
        forall_mem_of_all (by decide)
      obtain rfl := (hkind c hmem).resolve_left fun hsign => hnumeric (.inr hsign)
      obtain ⟨more, hfloat, -⟩ := decimalTail?_point (any_isDigit_of_not_isOperator hmem hop)
      cases hdecimal.symm.trans hfloat

/-- A character with which no recogniser begins anything has a cause. -/
theorem exists_cause {c : Char} {cs : List Char} (hspace : isSpace c = false)
    (hline : lineComment? c cs = none) (hop : isOperator c cs = false)
    (hopening : stringOpening? c cs = none) (hword : wordTail? c cs = none)
    (hdecimal : decimalTail? c cs = none)
    (hback : ¬ (c = '\\' ∧ (cs.head? = some '\n' ∨ cs.head? = some 'N'))) :
    ∃ cause : Cause, cause.Holds .initial c cs := by
  by_cases hnumeric : c.isDigit = true ∨ isSign c = true
  · have hafter : c.isDigit = true ∨ isSign c = true ∧ cs.head?.any Char.isDigit = true :=
      hnumeric.imp_right fun hsign =>
        ⟨hsign, any_isDigit_of_not_isOperator (mem_numericOperatorChars hsign) hop⟩
    have hstray := stray_of_decimalTail?_eq_none hdecimal <| hafter.imp_right fun hsign =>
      ⟨hsign.1, fun hnil => by cases hsign.2.symm.trans (takeWhile_eq_nil_iff.mp hnil)⟩
    exact ⟨.number, .number hafter (stray_iff_malformed.mp hstray)⟩
  have hbare := isBare_of_none hspace hline hop hopening hword hdecimal hnumeric
  by_cases hat : c = '@'
  · subst hat
    refine ⟨.atSign, .atSign ((Bool.not_eq_true _).mp fun hname => ?_)⟩
    obtain ⟨d, hhead, hd⟩ := (Option.any_eq_true _ _).mp hname
    obtain ⟨ds, rfl⟩ := List.head?_eq_some_iff.mp hhead
    simp [wordTail?, hd] at hword
  by_cases hbackslash : c = '\\'
  · subst hbackslash
    exact ⟨.backslash, .backslash (fun h => hback ⟨rfl, .inl h⟩) (fun h => hback ⟨rfl, .inr h⟩)⟩
  · exact ⟨.stray, .stray hbare hat hbackslash⟩

/-- A move outside strings writes an error only if there is a cause, and
writes nothing else then. -/
theorem CodeRule.cause {nameExpected : Bool} {c : Char} {cs : List Char} {move : Move State}
    (h : CodeRule nameExpected c cs move) {l : Lexeme} (hl : .token l ∈ move.writes)
    (hkind : l.kind = .error) :
    move = .token .error c [] (.code nameExpected) ∧ ∃ cause : Cause, cause.Holds .initial c cs := by
  cases h with
  | error hspace hline hop hopening hword _ _ hdecimal hback =>
    exact ⟨rfl, exists_cause hspace hline hop hopening hword hdecimal hback⟩
  | blockComment h =>
    cases List.mem_singleton.mp hl
    rcases blockComment?_kind h with rfl | rfl <;> cases hkind
  | opening =>
    have hpart := part_of_mem_openingMove hl
    rw [hkind] at hpart
    cases hpart
  | word =>
    cases List.mem_singleton.mp hl
    exact absurd hkind (wordKind_class _ _).2.2
  | decimal _ _ _ h =>
    cases List.mem_singleton.mp hl
    obtain ⟨-, rfl | rfl⟩ := decimalTail?_isPrefix h <;> cases hkind
  | _ => cases List.mem_singleton.mp hl; cases hkind

theorem IsBare.isOperator_eq_false {c : Char} (h : IsBare c) (cs : List Char) :
    isOperator c cs = false := by
  obtain ⟨hop, hnumeric⟩ := not_or.mp (List.mem_append.not.mp h.operator)
  simp [isOperator, hop, hnumeric]

theorem IsBare.stringOpening?_eq_none {c : Char} (h : IsBare c) (cs : List Char) :
    stringOpening? c cs = none := by
  have hletters : ∀ d ∈ '_' :: modifierLetters, isNameStart d = true := forall_mem_of_all (by decide)
  have hletter : c ∉ '_' :: modifierLetters := by
    intro hmem
    cases h.name.symm.trans (hletters c hmem)
  obtain ⟨hunderscore, hletter⟩ := List.ne_and_not_mem_of_not_mem_cons hletter
  simp [stringOpening?, h.quote, hletter, hunderscore]

theorem IsBare.wordTail?_eq_none {c : Char} {cs : List Char} (h : IsBare c)
    (hat : c = '@' → cs.head?.any isNameStart = false) : wordTail? c cs = none := by
  unfold wordTail?
  split
  · next heq =>
    have hname := hat heq
    cases cs with
    | nil => rfl
    | cons d ds => exact if_neg ((Bool.not_eq_true _).mpr hname)
  · exact if_neg ((Bool.not_eq_true _).mpr h.name)

theorem IsBare.decimalTail?_eq_none {c : Char} (h : IsBare c) (cs : List Char) :
    decimalTail? c cs = none := by
  have hpoint : c ≠ '.' := by
    rintro rfl
    exact h.operator (by decide)
  simp [decimalTail?, h.not_isSign, decimal?, h.digit, fraction?_cons, hpoint]

/-- With a bare character nothing begins, unless what has to follow it does. -/
theorem IsBare.codeMove_eq {c : Char} {cs : List Char} (h : IsBare c)
    (hat : c = '@' → cs.head?.any isNameStart = false)
    (hback : c = '\\' → cs.head? ≠ some '\n' ∧ cs.head? ≠ some 'N') (nameExpected : Bool) :
    codeMove nameExpected c cs = .token .error c [] (.code nameExpected) := by
  have hslash : c ≠ '/' := by
    rintro rfl
    exact h.operator (by decide)
  have hzero : c ≠ '0' := by
    rintro rfl
    cases h.digit
  have hline : lineComment? c cs = none := by simp [lineComment?, h.comment, hslash]
  have hblock : blockComment? c cs = none := by simp [blockComment?, hslash]
  unfold codeMove
  rw [h.space, if_neg Bool.false_ne_true, if_neg (fun hc => (hback hc.1).1 hc.2), hline, hblock]
  simp only [h.isOperator_eq_false, h.stringOpening?_eq_none, h.wordTail?_eq_none hat,
    Bool.false_eq_true, if_false]
  exact numberMove_eq_error hzero (h.decimalTail?_eq_none cs) (fun hc => (hback hc.1).2 hc.2)
    nameExpected

/-- A sign before digits and a stray mark begins nothing. -/
theorem Stray.codeMove_sign {c : Char} {ds rest : List Char} (h : Stray rest)
    (hds : ∀ d ∈ ds, d.isDigit = true) (hne : ds ≠ []) (hc : isSign c = true)
    (nameExpected : Bool) :
    codeMove nameExpected c (ds ++ rest) = .token .error c [] (.code nameExpected) := by
  have hmem := mem_numericOperatorChars hc
  have hhead : (ds ++ rest).head?.any Char.isDigit = true := by
    cases ds with
    | nil => exact absurd rfl hne
    | cons d ds => exact hds d List.mem_cons_self
  have hclass : ∀ d ∈ numericOperatorChars, d ∉ operatorChars ∧ d ≠ '0' ∧ d ≠ '\\' :=
    forall_mem_of_all (by decide)
  obtain ⟨hop, hzero, hback⟩ := hclass c hmem
  have hoperator : isOperator c (ds ++ rest) = false := by
    rw [isOperator, hhead]
    simp [hop]
  have hdecimal : decimalTail? c (ds ++ rest) = none := by
    rw [decimalTail?, if_pos hc, h.decimal?_eq_none hds]
  rw [codeMove_of_numeric (List.mem_append_right _ hmem), hoperator, if_neg Bool.false_ne_true]
  exact numberMove_eq_error hzero hdecimal (fun h => hback h.1) nameExpected

/-- A character with a cause is an error outside strings. -/
theorem Cause.Holds.codeMove_eq {cause : Cause} {c : Char} {cs : List Char}
    (h : cause.Holds .initial c cs) (nameExpected : Bool) :
    codeMove nameExpected c cs = .token .error c [] (.code nameExpected) := by
  cases h with
  | stray hc hat hback =>
    exact hc.codeMove_eq (fun heq => absurd heq hat) (fun heq => absurd heq hback) nameExpected
  | atSign h =>
    have hbare : IsBare '@' := ⟨rfl, rfl, rfl, rfl, by decide, by decide⟩
    exact hbare.codeMove_eq (fun _ => h) nofun nameExpected
  | backslash hline hconstant =>
    have hbare : IsBare '\\' := ⟨rfl, rfl, rfl, rfl, by decide, by decide⟩
    exact hbare.codeMove_eq nofun (fun _ => ⟨hline, hconstant⟩) nameExpected
  | number hc h =>
    have hstray := stray_iff_malformed.mpr h
    have hdigits : ∀ d ∈ cs.takeWhile Char.isDigit, d.isDigit = true :=
      List.all_eq_true.mp List.all_takeWhile
    rw [← List.prefix_iff_eq_append.mp (List.takeWhile_prefix (l := cs) Char.isDigit)]
    rcases hc with hdigit | ⟨hsign, hhead⟩
    · exact hstray.codeMove_eq (List.forall_mem_cons.mpr ⟨hdigit, hdigits⟩) nameExpected
    · refine hstray.codeMove_sign hdigits (fun hnil => ?_) hsign nameExpected
      cases hhead.symm.trans (takeWhile_eq_nil_iff.mp hnil)

/-! ## Moves in every state -/

/-- The move on an error: what is held back is written, the character as a
token of its own, and the end of the group that is open. -/
def errorMove (state : State) (c : Char) : Move State where
  writes := lexer.flush state ++ .token ⟨.error, [c]⟩ :: (lexer.mode state).closing
  further := 0
  next := .code state.nameExpected

/-- A move that writes an error is that move, and there is a cause. -/
theorem cause_of_step {state : State} {c : Char} {cs : List Char} {move : Move State}
    (hs : lexer.step state c cs = some move) {l : Lexeme} (hl : .token l ∈ move.writes)
    (hkind : l.kind = .error) :
    move = errorMove state c ∧ ∃ cause : Cause, cause.Holds (lexer.mode state) c cs := by
  cases state with
  | code nameExpected => exact (codeRule_of_step hs).cause hl hkind
  | string nameExpected quote held =>
    cases stringRule_of_step hs with
    | broken hc _ hend =>
      subst hc hend
      exact ⟨rfl, .ending, .ending⟩
    | closing | escape =>
      rcases List.mem_append.mp hl with hl | hl
      · exact absurd hl (not_mem_release (by rw [hkind]; rfl))
      · simp at hl
        cases hl
        cases hkind
    | _ => cases hl

/-- A state within a string has a quote that ends the string. -/
def State.Quoted : State → Prop
  | .code _ => True
  | .string _ quote _ => isQuote quote = true

theorem quoted_of_step {state : State} {c : Char} {cs : List Char} {move : Move State}
    (hs : lexer.step state c cs = some move) (h : state.Quoted) : move.next.Quoted := by
  cases state with
  | code nameExpected =>
    cases codeRule_of_step hs with
    | opening h => exact (stringOpening?_isPrefix h).2
    | _ => trivial
  | string nameExpected quote held =>
    cases stringRule_of_step hs with
    | plain | doubled | foreign | escape => exact h
    | closing | broken => trivial

theorem quoted_of_reaches {source rest : List Char} {written : List (Piece Lexeme)} {state : State}
    (hr : lexer.Reaches source written state rest) : state.Quoted := by
  induction hr with
  | start => trivial
  | move _ hs ih => exact quoted_of_step hs ih

/-- A character with a cause is an error in every state. -/
theorem Cause.Holds.step_eq {cause : Cause} {state : State} {c : Char} {cs : List Char}
    (h : cause.Holds (lexer.mode state) c cs) (hstate : state.Quoted) :
    lexer.step state c cs = some (errorMove state c) := by
  cases state with
  | code nameExpected => exact congrArg some (h.codeMove_eq nameExpected)
  | string nameExpected quote held =>
    obtain ⟨move, hs, hrule⟩ := stringMove?_rule nameExpected quote held c cs
    have hs : lexer.step (.string nameExpected quote held) c cs = some move := hs
    cases h with
    | ending =>
      have hquote := quote_ne_backslash hstate
      cases hrule with
      | plain hc => cases hc
      | doubled hc => exact absurd hc.symm hquote
      | closing hc => exact absurd hc.symm hquote
      | foreign hc => cases hc
      | escape _ _ h => cases h
      | broken => exact hs

/-! ## Errors of a query -/

/-- The error stands between what was held back and the end of the group. -/
theorem errorMove_split {state : State} {c : Char} {first last : List (Piece Lexeme)} {l : Lexeme}
    (h : (errorMove state c).writes = first ++ .token l :: last) (hkind : l.kind = .error) :
    first = lexer.flush state ∧ l = ⟨.error, [c]⟩ ∧ last = (lexer.mode state).closing := by
  have hfinish : .token l ∉ lexer.flush state ++ (lexer.mode state).closing := by
    intro hl
    have hpart := part_of_mem_finish hl
    rw [hkind] at hpart
    cases hpart
  obtain ⟨hflush, hclosing⟩ := not_or.mp (List.mem_append.not.mp hfinish)
  obtain ⟨hfirst, heq, hlast⟩ := (List.append_cons_inj_of_notMem hflush hclosing).mp h
  cases heq
  exact ⟨hfirst.symm, rfl, hlast.symm⟩

/-- Every error of a query is one character with one cause. -/
theorem cause_of_events {source : List Char} {before after : List (Piece Lexeme)} {l : Lexeme}
    (he : Language.query.events source = before ++ .token l :: after) (hkind : l.kind = .error) :
    ∃ c m, l.text = [c] ∧ Mode.initial.afterAll? before = some m ∧
      ∃! cause : Cause, cause.Holds m c (textOf after) := by
  cases lossless.writes he with
  | @move written first last state c cs move hr hs hwrites hbefore hafter =>
    obtain ⟨rfl, cause, hcause⟩ := cause_of_step hs (l := l) (by rw [hwrites]; simp) hkind
    obtain ⟨hfirst, rfl, hlast⟩ := errorMove_split hwrites hkind
    have hmode : Mode.initial.afterAll? before = some (lexer.mode state) := by
      rw [hbefore, hfirst, Mode.afterAll?_append, lossless.mode_of_reaches hr]
      exact lossless.flush_nested state
    have htext : textOf after = cs := by
      rw [hafter, hlast, textOf_append, Mode.textOf_closing, lossless.textOf_eventsFrom]
      rfl
    refine ⟨c, lexer.mode state, rfl, hmode, cause, ?_, fun other hother => ?_⟩
    · rw [htext]
      exact hcause
    · exact hother.eq_of.trans hcause.eq_of.symm
  | finish _ hwrites =>
    have hpart := part_of_mem_finish (l := l) (by rw [hwrites]; simp)
    rw [hkind] at hpart
    cases hpart

/-- Every character with a cause that the lexer comes to is an error of the
query, in its place. -/
theorem events_of_cause {source : List Char} {written : List (Piece Lexeme)} {state : State}
    {c : Char} {cs : List Char} {cause : Cause}
    (hr : lexer.Reaches source written state (c :: cs))
    (h : cause.Holds (lexer.mode state) c cs) :
    ∃ before after, Language.query.events source = before ++ .token ⟨.error, [c]⟩ :: after ∧
      textOf before ++ c :: cs = source ∧ textOf after = cs := by
  obtain ⟨hsource, hevents⟩ := lossless.of_reaches hr
  have hs := h.step_eq (quoted_of_reaches hr)
  rw [lexer.eventsFrom_cons hs] at hevents
  refine ⟨written ++ lexer.flush state,
    (lexer.mode state).closing ++ lexer.eventsFrom (.code state.nameExpected) cs, ?_, ?_, ?_⟩
  · show lexer.eventsFrom lexer.start source = _
    rw [hevents]
    simp [errorMove]
  · rw [textOf_append, lossless.flush_text, ← hsource]
  · rw [textOf_append, Mode.textOf_closing, lossless.textOf_eventsFrom]
    rfl

end QueryLexer

/-- The errors of a query, in a source of at most 2³² − 2 characters. Each is
one character for which there is exactly one cause; the markers before it say
whether it stands within a string. Each character with a cause that the lexer
comes to is an error, in its place. -/
theorem tokenize_errors (source : List Char) (hsize : source.length ≤ sourceBound) :
    ∃ stream, tokenize .query source = .ok (.ok stream) ∧ textOf stream.bare = source ∧
      (∀ before l after, stream.bare = before ++ .token l :: after → l.kind = .error →
        ∃ c m, l.text = [c] ∧ Mode.initial.afterAll? before = some m ∧
          ∃! cause : QueryLexer.Cause, cause.Holds m c (textOf after)) ∧
      ∀ written state c cs (cause : QueryLexer.Cause),
        QueryLexer.lexer.Reaches source written state (c :: cs) →
        cause.Holds (QueryLexer.lexer.mode state) c cs →
        ∃ before after, stream.bare = before ++ .token ⟨.error, [c]⟩ :: after ∧
          textOf before ++ c :: cs = source ∧ textOf after = cs := by
  refine ⟨_, tokenize_eq hsize, ?_, fun before l after h hkind => ?_,
    fun written state c cs cause hr h => ?_⟩
  · rw [Language.bare_stream, Language.textOf_events]
  · rw [Language.bare_stream] at h
    exact QueryLexer.cause_of_events h hkind
  · rw [Language.bare_stream]
    exact QueryLexer.events_of_cause hr h

/-- A sign before a malformed number is an error, and so is a backslash at the
end of the source within a string. -/
theorem tokenize_errors_sign :
    ∃ stream before before' after,
      tokenize .query ['-', '7', '.', '\x27', '\\'] = .ok (.ok stream) ∧
      stream.bare = before ++ .token ⟨.error, ['-']⟩ :: after ∧
      textOf after = ['7', '.', '\x27', '\\'] ∧
      stream.bare = before' ++ [.token ⟨.error, ['\\']⟩, .endGroup] ∧
      ∃! cause : QueryLexer.Cause, cause.Holds .inString '\\' [] := by
  obtain ⟨stream, hstream, -, hcause, hmet⟩ :=
    tokenize_errors ['-', '7', '.', '\x27', '\\'] (by decide)
  cases hstream.symm.trans (tokenize_eq (by decide))
  have hnumber : QueryLexer.Cause.number.Holds .initial '-' ['7', '.', '\x27', '\\'] :=
    .number (.inr ⟨rfl, rfl⟩) (.point rfl)
  obtain ⟨before, after, hsign, -, hafter⟩ := hmet _ _ _ _ _ .start hnumber
  have hbare : (Language.stream .query ['-', '7', '.', '\x27', '\\']).bare =
      [.token ⟨.error, ['-']⟩, .token ⟨.error, ['7']⟩, .token ⟨.operator, ['.']⟩, .beginGroup,
        .token ⟨.delimiter, ['\x27']⟩] ++ .token ⟨.error, ['\\']⟩ :: [.endGroup] := by
    decide +kernel
  obtain ⟨c, m, htext, hmode, hunique⟩ := hcause _ _ _ hbare rfl
  cases htext
  cases hmode
  exact ⟨_, before, _, after, hstream, hsign, hafter, hbare, hunique⟩

end Highlight1C
