import Highlight1C.Proofs.ModuleCutting
import Highlight1C.Proofs.Pieces

/-!
# The grammar of module code

`ModuleLexer.Form` gives the form of every kind of token of module code, in
front of the text that follows it: which texts are such tokens, and that a
token goes as far as it can. Kinds that have no form do not occur.

Every rule of the lexer writes a token of the form of its kind
(`CodeRule.form`, `StringRule.form`), and every token is written by a rule, so
every token has its form (`form_of_events`). The forms alone tell more about
neighbours: no two tokens of layout stand side by side, and no number begins
in the middle of a run of digits (`tokenize_grammar`).
-/

namespace Highlight1C

open Text

namespace ModuleLexer

/-! ## The forms of tokens -/

/-- The operators of two characters. -/
def operatorPairs : List (List Char) := [['<', '>'], ['<', '='], ['>', '='], [':', '=']]

/-- An operator in front of a text: a pair, or one character that is not the
beginning of a pair or of a comment. -/
def IsOperator (text rest : List Char) : Prop :=
  text ∈ operatorPairs ∨
    ∃ c ∈ operatorChars, text = [c] ∧
      ∀ d, rest.head? = some d → [c, d] ∉ operatorPairs ∧ [c, d] ≠ ['/', '/']

/-- A word in front of a text: a letter or an underscore and all the word
characters behind it, or the sign of directives at the end of a line. -/
def IsWord (text rest : List Char) : Prop :=
  (∃ c cs, text = c :: cs ∧ isNameStart c = true ∧ (∀ d ∈ cs, isWordChar d = true) ∧
    Stops isWordChar rest) ∨ text = ['&'] ∧ LineEnds rest

/-- A whole number in front of a text: all the digits, without a point and a
further digit behind them. -/
structure IsInteger (text rest : List Char) : Prop where
  digits : Run Char.isDigit text
  stops : Stops Char.isDigit rest
  whole : ∀ d after, rest = '.' :: d :: after → d.isDigit = false

/-- A fraction in front of a text: digits, a point, and all the digits behind
the point. -/
def IsFraction (text rest : List Char) : Prop :=
  ∃ whole part, text = whole ++ '.' :: part ∧ Run Char.isDigit whole ∧ Run Char.isDigit part ∧
    Stops Char.isDigit rest

/-- A character with which no other token begins. -/
structure IsStray (c : Char) : Prop where
  space : isSpace c = false
  name : isNameStart c = false
  digit : c.isDigit = false
  operator : c ∉ operatorChars
  sign : c ∉ ['#', '&', quote]

/-- The form of a token of a kind, in front of a text. -/
def Form (kind : TokenKind) (text rest : List Char) : Prop :=
  match kind with
  | .space => Run isSpace text ∧ Stops isSpace rest
  | .preprocessor => Line ['#'] text rest
  | .directive => Line ['&'] text rest ∧ 2 ≤ byteLength text
  | .comment => Line ['/', '/'] text rest
  | .operator => IsOperator text rest
  | .ident | .keyword => IsWord text rest
  | .integer => IsInteger text rest
  | .float => IsFraction text rest
  | .error => ∃ c, text = [c] ∧ IsStray c
  | .delimiter => text = [quote]
  | .content => Run (· != quote) text ∧ Stops (· != quote) rest
  | .char => text = [quote, quote]
  | _ => False

/-! ## Every token has its form -/

theorem isPair_iff {c d : Char} : isPair c d = true ↔ [c, d] ∈ operatorPairs := by
  simp only [isPair, operatorPairs, Bool.or_eq_true, Bool.and_eq_true, beq_iff_eq, List.mem_cons,
    List.cons.injEq, List.not_mem_nil, and_true, or_false, and_or_left, or_assoc]

theorem isOperator_of_operatorTail? {c : Char} {cs more : List Char}
    (h : operatorTail? c cs = some more) (hcomment : ¬ (c = '/' ∧ cs.head? = some '/')) :
    IsOperator (c :: more) (cs.drop more.length) := by
  cases cs with
  | nil =>
    simp only [operatorTail?] at h
    split at h
    · next hop =>
      cases h
      exact .inr ⟨c, List.contains_iff_mem.mp hop, rfl, by simp⟩
    · cases h
  | cons d ds =>
    simp only [operatorTail?] at h
    split at h
    · next hpair =>
      cases h
      exact .inl (isPair_iff.mp hpair)
    next hpair =>
    split at h
    · next hop =>
      cases h
      refine .inr ⟨c, List.contains_iff_mem.mp hop, rfl, fun e he => ?_⟩
      cases he
      refine ⟨fun hmem => hpair (isPair_iff.mpr hmem), fun heq => hcomment ?_⟩
      cases heq
      exact ⟨rfl, rfl⟩
    · cases h

theorem not_mem_operatorChars {c : Char} {cs : List Char} (h : operatorTail? c cs = none) :
    c ∉ operatorChars := by
  intro hmem
  have hop : operatorChars.contains c = true := List.contains_iff_mem.mpr hmem
  cases cs with
  | nil => simp only [operatorTail?, hop, if_true, reduceCtorEq] at h
  | cons d ds =>
    simp only [operatorTail?, hop, if_true] at h
    split at h <;> cases h

/-- A point and a digit behind digits make a fraction of them. -/
theorem isFraction_of_fraction? {c : Char} {cs fraction : List Char} (hc : c.isDigit = true)
    (h : fraction? (cs.drop (cs.takeWhile Char.isDigit).length) = some fraction) :
    IsFraction (c :: (cs.takeWhile Char.isDigit ++ fraction))
      (cs.drop (cs.takeWhile Char.isDigit ++ fraction).length) := by
  cases hrest : cs.drop (cs.takeWhile Char.isDigit).length with
  | nil =>
    rw [hrest] at h
    cases h
  | cons d after =>
    rw [hrest, fraction?_cons] at h
    split at h
    · next hpoint =>
      cases h
      refine ⟨c :: cs.takeWhile Char.isDigit, after.takeWhile Char.isDigit, rfl,
        run_cons_takeWhile hc cs, run_takeWhile hpoint.2, ?_⟩
      rw [List.length_append, ← List.drop_drop, hrest]
      exact stops_drop_takeWhile Char.isDigit after
    · cases h

/-- Digits without a point and a digit behind them are a whole number. -/
theorem isInteger_of_fraction? {c : Char} {cs : List Char} (hc : c.isDigit = true)
    (h : fraction? (cs.drop (cs.takeWhile Char.isDigit).length) = none) :
    IsInteger (c :: cs.takeWhile Char.isDigit) (cs.drop (cs.takeWhile Char.isDigit).length) where
  digits := run_cons_takeWhile hc cs
  stops := stops_drop_takeWhile Char.isDigit cs
  whole := by
    intro d after hrest
    rw [hrest, fraction?_cons] at h
    split at h
    · cases h
    · next hpoint =>
      cases hd : d.isDigit with
      | false => rfl
      | true =>
        refine absurd ⟨rfl, ?_⟩ hpoint
        rw [List.takeWhile_cons_of_pos hd]
        exact List.cons_ne_nil _ _

/-- A letter or an underscore and the word characters behind it are a word, and
so is the sign of directives where a line ends. -/
theorem isWord_takeWhile {c : Char} {cs : List Char}
    (h : isNameStart c = true ∨ c = '&' ∧ restOfLine cs = []) :
    IsWord (c :: cs.takeWhile isWordChar) (cs.drop (cs.takeWhile isWordChar).length) := by
  rcases h with hc | ⟨rfl, hline⟩
  · exact .inl ⟨c, _, rfl, hc, List.all_eq_true.mp List.all_takeWhile,
      stops_drop_takeWhile isWordChar cs⟩
  · have hends : LineEnds cs := restOfLine_eq_nil.mp hline
    rw [takeWhile_eq_nil_of_stop (hends.stops (by decide))]
    exact .inr ⟨rfl, hends⟩

theorem form_word {kind : TokenKind} (hkind : kind = .ident ∨ kind = .keyword)
    {text rest : List Char} (h : IsWord text rest) : Form kind text rest := by
  rcases hkind with rfl | rfl
  · exact h
  · exact h

/-- Outside strings, a rule writes one token, of the form of its kind. -/
theorem CodeRule.form {nameFollows : Bool} {c : Char} {cs : List Char} {move : Move State}
    (h : CodeRule nameFollows c cs move) :
    ∃ l, lexemesOf move.writes = [l] ∧ Form l.kind l.text (cs.drop move.further) := by
  cases h with
  | space hc => exact ⟨_, rfl, run_cons_takeWhile hc cs, stops_drop_takeWhile isSpace cs⟩
  | preprocessor hc =>
    subst hc
    exact ⟨_, rfl, line_restOfLine (by decide) cs ⟨restOfLine cs, rfl⟩⟩
  | directive hc hline =>
    subst hc
    refine ⟨_, rfl, line_restOfLine (by decide) cs ⟨restOfLine cs, rfl⟩, ?_⟩
    obtain ⟨d, ds, heq⟩ := List.exists_cons_of_ne_nil hline
    have hand := Char.utf8Size_pos '&'
    have hd := Char.utf8Size_pos d
    show 2 ≤ byteLength ('&' :: restOfLine cs)
    rw [heq, byteLength_cons, byteLength_cons]
    omega
  | comment hc hd =>
    subst hc
    obtain ⟨ds, rfl⟩ := List.head?_eq_some_iff.mp hd
    exact ⟨_, rfl, line_restOfLine (by decide) _ ⟨restOfLine ds, rfl⟩⟩
  | operator hcomment hop => exact ⟨_, rfl, isOperator_of_operatorTail? hop hcomment⟩
  | word hc => exact ⟨_, rfl, form_word (word_kind nameFollows hc) (isWord_takeWhile hc)⟩
  | opening hc => exact ⟨_, rfl, hc ▸ rfl⟩
  | float hc hf => exact ⟨_, rfl, isFraction_of_fraction? hc hf⟩
  | integer hc hf => exact ⟨_, rfl, isInteger_of_fraction? hc hf⟩
  | error hspace hhash hamp hop hname hquote hdigit =>
    have hsign : c ∉ ['#', '&', quote] := by simp [hhash, hamp, hquote]
    exact ⟨_, rfl, c, rfl, hspace, hname, hdigit, not_mem_operatorChars hop, hsign⟩

/-- Within a string, too. -/
theorem StringRule.form {c : Char} {cs : List Char} {move : Move State}
    (h : StringRule c cs move) :
    ∃ l, lexemesOf move.writes = [l] ∧ Form l.kind l.text (cs.drop move.further) := by
  cases h with
  | content hc =>
    have hplain : (c != quote) = true := by simpa using hc
    exact ⟨_, rfl, run_cons_takeWhile (p := (· != quote)) hplain cs, stops_drop_takeWhile _ cs⟩
  | doubled hc _ =>
    subst hc
    exact ⟨_, rfl, rfl⟩
  | closing hc _ =>
    subst hc
    exact ⟨_, rfl, rfl⟩

/-- Every token of module code has the form of its kind. -/
theorem form_of_events {source : List Char} {before after : List (Piece Lexeme)} {l : Lexeme}
    (he : Language.module.events source = before ++ .token l :: after) :
    Form l.kind l.text (textOf after) := by
  obtain ⟨state, c, cs, move, hmove⟩ := writesToken he
  have hform : ∃ l', lexemesOf move.writes = [l'] ∧
      Form l'.kind l'.text (cs.drop move.further) := by
    have hs := hmove.step
    cases state with
    | code nameFollows => exact (codeRule_of_step hs).form
    | string => exact (stringRule_of_step hs).form
  obtain ⟨l', hwrites, hform⟩ := hform
  rw [hmove.after, List.singleton_inj.mp (hmove.writes.symm.trans hwrites)]
  exact hform

theorem form_of_lexemes {source : List Char} {before after : List Lexeme} {l : Lexeme}
    (h : (Language.module.stream source).lexemes = before ++ l :: after) :
    Form l.kind l.text (after.flatMap (·.text)) := by
  rw [Language.lexemes_stream] at h
  obtain ⟨front, back, hevents, -, rfl⟩ := lexemesOf_eq_split h
  rw [← textOf_eq]
  exact form_of_events hevents

theorem text_ne_nil_of_lexemes {source : List Char} {before after : List Lexeme} {l : Lexeme}
    (h : (Language.module.stream source).lexemes = before ++ l :: after) : l.text ≠ [] := by
  rw [Language.lexemes_stream] at h
  obtain ⟨front, back, hevents, -, -⟩ := lexemesOf_eq_split h
  exact lossless.text_ne_nil hevents

/-! ## Neighbours -/

/-- No digit follows a token that ends with a digit. -/
theorem Form.stops_digit {kind : TokenKind} {text rest : List Char} (h : Form kind text rest)
    {c : Char} (hlast : text.getLast? = some c) (hc : c.isDigit = true) :
    Stops Char.isDigit rest := by
  have hmem : c ∈ text := List.mem_of_getLast? hlast
  -- these tokens have no digits
  have without (hnone : ∀ d ∈ text, d.isDigit = false) : Stops Char.isDigit rest :=
    absurd hc (by rw [hnone c hmem]; decide)
  cases kind with
  | space =>
    have hdigit : ∀ d ∈ digits, isSpace d = false := forall_mem_of_all (by decide)
    exact absurd (h.1.2 c hmem) (by rw [hdigit c (mem_digits hc)]; decide)
  | preprocessor => exact h.ends.stops (by decide)
  | directive => exact h.1.ends.stops (by decide)
  | comment => exact h.ends.stops (by decide)
  | operator =>
    rcases h with hpair | ⟨d, hd, rfl, -⟩
    · have hpairs : ∀ pair ∈ operatorPairs,
          (pair.all fun d => decide (d.isDigit = false)) = true := by decide
      exact without (forall_mem_of_all (hpairs text hpair))
    · have hchars : ∀ d ∈ operatorChars, d.isDigit = false := forall_mem_of_all (by decide)
      exact without fun e he => List.mem_singleton.mp he ▸ hchars d hd
  | ident | keyword =>
    rcases h with ⟨_, _, -, -, -, hstops⟩ | ⟨-, hends⟩
    · refine hstops.mono fun d hd => ?_
      simp only [isWordChar, Bool.or_eq_false_iff] at hd
      exact hd.2
    · exact hends.stops (by decide)
  | integer => exact h.stops
  | float =>
    obtain ⟨_, _, -, -, -, hstops⟩ := h
    exact hstops
  | error =>
    obtain ⟨d, rfl, hstray⟩ := h
    exact without fun e he => List.mem_singleton.mp he ▸ hstray.digit
  | delimiter =>
    cases h
    exact without (forall_mem_of_all (by decide))
  | content =>
    refine h.2.mono fun d hd => ?_
    have hquote : d = quote := by simpa using hd
    rw [hquote]
    decide
  | char =>
    cases h
    exact without (forall_mem_of_all (by decide))
  | _ => exact h.elim

/-- A number begins with a digit. -/
theorem Form.head_digit {kind : TokenKind} {text rest : List Char} (h : Form kind text rest)
    (hkind : kind = .integer ∨ kind = .float) : ∃ d ds, text = d :: ds ∧ d.isDigit = true := by
  have run {digits : List Char} (hrun : Run Char.isDigit digits) :
      ∃ d ds, digits = d :: ds ∧ d.isDigit = true := by
    obtain ⟨d, ds, rfl⟩ := List.exists_cons_of_ne_nil hrun.1
    exact ⟨d, ds, rfl, hrun.2 d List.mem_cons_self⟩
  rcases hkind with rfl | rfl
  · exact run h.digits
  · obtain ⟨whole, part, rfl, hwhole, -⟩ := h
    obtain ⟨d, ds, rfl, hd⟩ := run hwhole
    exact ⟨d, _, rfl, hd⟩

/-- A number does not begin in the middle of a run of digits. -/
theorem begins_of_lexemes {source : List Char} {before after : List Lexeme} {l : Lexeme}
    (h : (Language.module.stream source).lexemes = before ++ l :: after)
    (hkind : l.kind = .integer ∨ l.kind = .float) :
    Begins Char.isDigit (before.flatMap (·.text)) := by
  intro c hlast
  rcases List.eq_nil_or_concat before with rfl | ⟨init, k, rfl⟩
  · cases hlast
  · have hbefore : (Language.module.stream source).lexemes = init ++ k :: (l :: after) := by
      rw [h, List.concat_append]
    have hk := List.getLast?_eq_some_getLast (text_ne_nil_of_lexemes hbefore)
    rw [List.concat_eq_append, List.flatMap_append, List.flatMap_singleton, List.getLast?_append, hk,
      Option.some_or, ← hk] at hlast
    cases hc : c.isDigit with
    | false => rfl
    | true =>
      have hstop := (form_of_lexemes hbefore).stops_digit hlast hc
      obtain ⟨d, ds, htext, hd⟩ := (form_of_lexemes h).head_digit hkind
      have hnot := hstop d (by rw [List.flatMap_cons, htext]; rfl)
      exact absurd hd (by rw [hnot]; decide)

/-- Tokens of layout do not stand side by side. -/
theorem not_space_space {source : List Char} {before after : List Lexeme} {k l : Lexeme}
    (h : (Language.module.stream source).lexemes = before ++ k :: l :: after) :
    ¬ (k.kind = .space ∧ l.kind = .space) := by
  rintro ⟨hk, hl⟩
  have hfirst := form_of_lexemes h
  rw [← List.concat_append] at h
  have hsecond := form_of_lexemes h
  rw [hk] at hfirst
  rw [hl] at hsecond
  obtain ⟨d, ds, heq⟩ := List.exists_cons_of_ne_nil hsecond.1.1
  have hspace : isSpace d = true := hsecond.1.2 d (by rw [heq]; exact List.mem_cons_self)
  have hstop : isSpace d = false := by
    refine hfirst.2 d ?_
    rw [List.flatMap_cons, heq]
    rfl
  exact absurd hspace (by rw [hstop]; decide)

end ModuleLexer

/-- The tokens of module code, of a source of at most 2³² − 2 characters. Each
has the form of its kind in front of the text that follows it. A number does
not begin in the middle of a run of digits, so its digits are all there are on
both sides. No two tokens of layout stand side by side. -/
theorem tokenize_grammar (source : List Char) (hsize : source.length ≤ sourceBound) :
    ∃ stream, tokenize .module source = .ok (.ok stream) ∧
      stream.lexemes.flatMap (·.text) = source ∧
      (∀ before l after, stream.lexemes = before ++ l :: after →
        ModuleLexer.Form l.kind l.text (after.flatMap (·.text)) ∧
        (l.kind = .integer ∨ l.kind = .float →
          Begins Char.isDigit (before.flatMap (·.text)))) ∧
      ∀ before k l after, stream.lexemes = before ++ k :: l :: after →
        ¬ (k.kind = .space ∧ l.kind = .space) := by
  refine ⟨_, tokenize_eq hsize, ?_, fun before l after h => ?_, fun before k l after h => ?_⟩
  · rw [Language.lexemes_stream, ← textOf_eq, Language.textOf_events]
  · exact ⟨ModuleLexer.form_of_lexemes h, ModuleLexer.begins_of_lexemes h⟩
  · exact ModuleLexer.not_space_space h

/-- A fraction between layout and an operator has its form, and begins where
its digits begin. -/
theorem tokenize_grammar_fraction :
    ∃ stream, tokenize .module [';', ' ', '1', '2', '.', '5', '/', '7'] = .ok (.ok stream) ∧
      stream.lexemes = [⟨.operator, [';']⟩, ⟨.space, [' ']⟩] ++
        ⟨.float, ['1', '2', '.', '5']⟩ :: [⟨.operator, ['/']⟩, ⟨.integer, ['7']⟩] ∧
      ModuleLexer.Form .float ['1', '2', '.', '5'] ['/', '7'] ∧
      Begins Char.isDigit [';', ' '] := by
  obtain ⟨stream, hstream, -, hforms, -⟩ :=
    tokenize_grammar [';', ' ', '1', '2', '.', '5', '/', '7'] (by decide)
  cases hstream.symm.trans (tokenize_eq (by decide))
  have hlexemes : (Language.stream .module [';', ' ', '1', '2', '.', '5', '/', '7']).lexemes =
      [⟨.operator, [';']⟩, ⟨.space, [' ']⟩] ++
        ⟨.float, ['1', '2', '.', '5']⟩ :: [⟨.operator, ['/']⟩, ⟨.integer, ['7']⟩] := by
    decide +kernel
  obtain ⟨hform, hbegins⟩ := hforms _ _ _ hlexemes
  exact ⟨_, hstream, hlexemes, hform, hbegins (.inr rfl)⟩

end Highlight1C
