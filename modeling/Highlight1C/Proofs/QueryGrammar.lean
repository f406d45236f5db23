import Highlight1C.Proofs.Listing
import Highlight1C.Proofs.QueryNames

/-!
# The grammar of queries

`QueryLexer.Form` lists the forms of the tokens of a query, each in front of
the text that follows it: layout, block comments and line comments, operators,
numbers, words, the constant `\N`, errors and the parts of strings. Every move
of the lexer writes tokens of these forms (`form_of_step`), so every token has
one (`form_of_events`).

A block comment goes through the first `*/` behind its opening, or to the end
of the source if there is none (`isBlockBody_throughClose`). What a token is
thus follows from its kind and its text (`tokenize_query_grammar`): outside
strings, whatever is neither layout nor a comment, an operator, a number, the
constant or an error is a word.
-/

namespace Highlight1C

open Text

namespace QueryLexer

/-! ## The forms of tokens -/

/-- The beginning of a block comment. -/
def blockOpening : List Char := ['/', '*']

/-- The end of a block comment. -/
def blockClose : List Char := ['*', '/']

/-- What stands behind the opening of a block comment, in front of a text: it
ends with the first close in it, or there is no close in it and the source ends
with it. -/
def IsBlockBody (body rest : List Char) : Prop :=
  (blockClose <:+ body ∧ ¬ blockClose <:+: body.dropLast) ∨ (¬ blockClose <:+: body ∧ rest = [])

/-- A block comment of a kind, in front of a text. -/
structure IsBlock (kind : TokenKind) (text rest : List Char) : Prop where
  /-- It is a directive exactly if an exclamation mark follows its opening. -/
  marked : kind = .directive ↔ blockOpening ++ ['!'] <+: text ++ rest
  /-- The mark belongs to the opening. -/
  body : ∃ body, IsBlockBody body rest ∧
    text = blockOpening ++ (if kind = .directive then '!' :: body else body)

/-- A line comment in front of a text. -/
def IsLineComment (text rest : List Char) : Prop :=
  Line ['/', '/'] text rest ∨ Line ['#'] text rest

/-- An operator in front of a text: one character that does not begin a
comment or a number. -/
def IsOperator (text rest : List Char) : Prop :=
  ∃ c ∈ operatorChars ++ numericOperatorChars, text = [c] ∧
    (c = '/' → rest.head? ≠ some '/' ∧ rest.head? ≠ some '*') ∧
    (c ∈ numericOperatorChars → Stops Char.isDigit rest)

/-- A word in front of a text: a letter or an underscore, perhaps with `@` in
front, and all the word characters behind it. -/
structure IsWholeWord (text rest : List Char) : Prop where
  word : isWordText text = true
  stops : Stops isWordChar rest

/-- The kinds of words. -/
def wordKinds : List TokenKind := .variable :: QueryWords.kinds

/-- The kinds of numbers. -/
def numberKinds : List TokenKind := [.integer, .float, .hex, .octal]

/-- The constant that is written with a backslash. -/
def nullConstant : Lexeme := ⟨.predefinedConstant, ['\\', 'N']⟩

/-- The form of a token in front of a text. -/
inductive Form : Lexeme → List Char → Prop where
  | layout {text rest : List Char} : Form ⟨.space, text⟩ rest
  | block {kind : TokenKind} {text rest : List Char} (hkind : kind = .directive ∨ kind = .comment)
    (h : IsBlock kind text rest) : Form ⟨kind, text⟩ rest
  | line {text rest : List Char} (h : IsLineComment text rest) : Form ⟨.comment, text⟩ rest
  | operator {text rest : List Char} (h : IsOperator text rest) : Form ⟨.operator, text⟩ rest
  | number {kind : TokenKind} {text rest : List Char} (hkind : kind ∈ numberKinds) :
    Form ⟨kind, text⟩ rest
  | constant {rest : List Char} : Form nullConstant rest
  | word {kind : TokenKind} {text rest : List Char} (hkind : kind ∈ wordKinds)
    (h : IsWholeWord text rest) : Form ⟨kind, text⟩ rest
  | error {text rest : List Char} : Form ⟨.error, text⟩ rest
  | part {l : Lexeme} {rest : List Char} (h : l.kind.isStringPart = true) : Form l rest

/-! ## Block comments -/

/-- No close begins with a character if none begins behind it and it is not the
first character of one itself. -/
theorem not_blockClose_cons {c : Char} {text : List Char}
    (hc : ¬ (c = '*' ∧ text.head? = some '/')) (htext : ¬ blockClose <:+: text) :
    ¬ blockClose <:+: c :: text := by
  intro h
  rcases List.infix_cons_iff.mp h with hprefix | hinfix
  · obtain ⟨hstar, hslash⟩ := List.cons_prefix_cons.mp hprefix
    obtain ⟨rest, rfl⟩ := hslash
    exact hc ⟨hstar.symm, rfl⟩
  · exact htext hinfix

/-- A comment goes through the first close behind its opening, or to the end of
the source. -/
theorem isBlockBody_throughClose (text : List Char) :
    IsBlockBody (throughClose text) (text.drop (throughClose text).length) := by
  induction text with
  | nil =>
    refine .inr ⟨?_, rfl⟩
    show ¬ blockClose <:+: []
    decide
  | cons c cs ih =>
    rw [throughClose_cons]
    split
    · refine .inl ⟨List.suffix_rfl, ?_⟩
      show ¬ blockClose <:+: ['*']
      decide
    next hc =>
    -- what begins the rest of the comment begins the rest of the text
    have hhead {part : List Char} (hpart : part <+: throughClose cs) :
        ¬ (c = '*' ∧ part.head? = some '/') := by
      rintro ⟨hstar, hslash⟩
      refine hc ⟨hstar, ?_⟩
      obtain ⟨rest, hrest⟩ :=
        (singleton_isPrefix hslash).trans (hpart.trans (throughClose_isPrefix cs))
      rw [← hrest]
      rfl
    rw [List.length_cons, List.drop_succ_cons]
    rcases ih with ⟨hsuffix, hfirst⟩ | ⟨hnone, hend⟩
    · have hne : throughClose cs ≠ [] := by
        intro hnil
        rw [hnil] at hsuffix
        exact absurd (List.eq_nil_of_suffix_nil hsuffix) (by decide)
      refine .inl ⟨hsuffix.trans (List.suffix_cons _ _), ?_⟩
      rw [List.dropLast_cons_of_ne_nil hne]
      exact not_blockClose_cons (hhead (List.dropLast_prefix _)) hfirst
    · exact .inr ⟨not_blockClose_cons (hhead List.prefix_rfl) hnone, hend⟩

theorem isBlock_of_blockComment? {c : Char} {cs more : List Char} {kind : TokenKind}
    (h : blockComment? c cs = some (kind, more)) :
    IsBlock kind (c :: more) (cs.drop more.length) := by
  have htext : c :: more ++ cs.drop more.length = c :: cs := by
    rw [List.cons_append, List.prefix_iff_eq_append.mp (blockComment?_isPrefix h).1]
  unfold blockComment? at h
  split at h
  · cases h
  next hc =>
  obtain rfl : c = '/' := Decidable.not_not.mp hc
  split at h
  · next body =>
    cases h
    refine ⟨?_, throughClose body, isBlockBody_throughClose body, rfl⟩
    rw [htext]
    exact iff_of_true rfl ⟨body, rfl⟩
  · next body hbody =>
    cases h
    refine ⟨?_, throughClose body, isBlockBody_throughClose body, rfl⟩
    rw [htext]
    refine iff_of_false nofun ?_
    rintro ⟨rest, hrest⟩
    cases hrest
    exact hbody rest rfl
  · cases h

/-! ## Every token has a form -/

theorem isLineComment_of_lineComment? {c : Char} {cs more : List Char}
    (h : lineComment? c cs = some more) : IsLineComment (c :: more) (cs.drop more.length) := by
  unfold lineComment? at h
  split at h
  · next hc =>
    cases h
    rcases hc with rfl | ⟨rfl, hslash⟩
    · exact .inr (line_restOfLine (by decide) cs ⟨_, rfl⟩)
    · obtain ⟨ds, rfl⟩ := List.head?_eq_some_iff.mp hslash
      exact .inl (line_restOfLine (by decide) _ ⟨restOfLine ds, rfl⟩)
  · cases h

theorem isOperator_of_rule {c : Char} {cs : List Char} (hline : lineComment? c cs = none)
    (hblock : blockComment? c cs = none) (h : isOperator c cs = true) : IsOperator [c] cs := by
  simp only [isOperator, Bool.or_eq_true, Bool.and_eq_true, List.contains_iff_mem] at h
  refine ⟨c, ?_, rfl, ?_, ?_⟩
  · exact List.mem_append.mpr (h.imp_right And.left)
  · rintro rfl
    refine ⟨fun hslash => ?_, fun hstar => ?_⟩
    · rw [lineComment?, if_pos (.inr ⟨rfl, hslash⟩)] at hline
      cases hline
    · rw [blockComment?_eq, if_pos ⟨rfl, hstar⟩] at hblock
      cases hblock
  · intro hnumeric d hd
    have hnot : ∀ e ∈ numericOperatorChars, e ∉ operatorChars := forall_mem_of_all (by decide)
    obtain ⟨-, hdigit⟩ := h.resolve_left (hnot c hnumeric)
    rw [hd] at hdigit
    simpa using hdigit

theorem isWholeWord_of_wordTail? {c : Char} {cs more : List Char} (h : wordTail? c cs = some more) :
    IsWholeWord (c :: more) (cs.drop more.length) := by
  refine ⟨isWordText_of_wordTail? h, ?_⟩
  unfold wordTail? at h
  split at h
  · split at h
    · split at h
      · cases h
        exact stops_drop_takeWhile isWordChar _
      · cases h
    · cases h
  · split at h
    · cases h
      exact stops_drop_takeWhile isWordChar cs
    · cases h

theorem wordKind_mem (nameExpected : Bool) (word : List Char) :
    wordKind nameExpected word ∈ wordKinds := by
  unfold wordKind
  split
  · decide
  split
  · decide
  · exact List.mem_cons_of_mem _ (QueryWords.classify_mem_kinds word)

/-- Outside strings, a rule writes one token that has a form, or parts of a
string. -/
theorem CodeRule.form {nameExpected : Bool} {c : Char} {cs : List Char} {move : Move State}
    (h : CodeRule nameExpected c cs move) :
    (∃ l, move.writes = [.token l] ∧ held move.next = [] ∧ Form l (cs.drop move.further)) ∨
      ∀ l, .token l ∈ move.writes → l.kind.isStringPart = true := by
  have token {kind : TokenKind} {more : List Char} {next : Bool}
      (hform : Form ⟨kind, c :: more⟩ (cs.drop more.length)) :
      ∃ l, (Move.token kind c more (State.code next)).writes = [.token l] ∧
        held (.code next) = [] ∧ Form l (cs.drop more.length) := ⟨_, rfl, rfl, hform⟩
  cases h with
  | space => exact .inl (token .layout)
  | continuation => exact .inl (token .layout)
  | lineComment h => exact .inl (token (.line (isLineComment_of_lineComment? h)))
  | blockComment h =>
    exact .inl (token (.block (blockComment?_kind h) (isBlock_of_blockComment? h)))
  | operator hline hblock h => exact .inl (token (.operator (isOperator_of_rule hline hblock h)))
  | opening => exact .inr fun l hl => part_of_mem_openingMove hl
  | word _ h => exact .inl (token (.word (wordKind_mem _ _) (isWholeWord_of_wordTail? h)))
  | hex => exact .inl (token (.number (by decide)))
  | octal => exact .inl (token (.number (by decide)))
  | decimal _ _ _ h =>
    refine .inl (token (.number ?_))
    obtain ⟨-, rfl | rfl⟩ := decimalTail?_isPrefix h
    · decide
    · decide
  | constant hc _ => exact .inl (token (hc ▸ .constant))
  | error => exact .inl (token .error)

/-- Within a string, a rule writes parts of the string, or an error. -/
theorem StringRule.form {nameExpected : Bool} {quote : Char} {held : List Char} {c : Char}
    {cs : List Char} {move : Move State} (h : StringRule nameExpected quote held c cs move)
    {l : Lexeme} (hl : .token l ∈ move.writes) (rest : List Char) : Form l rest := by
  -- what was held back comes first
  have release {kind : TokenKind} {text : List Char} {markers : List (Piece Lexeme)}
      (hform : Form ⟨kind, text⟩ rest) (hmarkers : .token l ∉ markers)
      (hl : .token l ∈ release held ++ .token ⟨kind, text⟩ :: markers) : Form l rest := by
    rcases List.mem_append.mp hl with hl | hl
    · exact .part (part_of_mem_release hl)
    rcases List.mem_cons.mp hl with heq | hl
    · cases heq
      exact hform
    · exact absurd hl hmarkers
  cases h with
  | plain | doubled | foreign => exact absurd hl List.not_mem_nil
  | closing => exact release (.part rfl) (by simp) hl
  | escape => exact release (.part rfl) (by simp) hl
  | broken => exact release .error (by simp) hl

/-- Every token of a query has a form. -/
theorem form_of_events {source : List Char} {before after : List (Piece Lexeme)} {l : Lexeme}
    (he : Language.query.events source = before ++ .token l :: after) : Form l (textOf after) := by
  cases lossless.writes he with
  | @move _ first last state c cs move _ hs hwrites _ hafter =>
    have hl : .token l ∈ move.writes := by
      rw [hwrites]
      simp
    cases state with
    | code nameExpected =>
      rcases (codeRule_of_step hs).form with ⟨l', hone, hheld, hform⟩ | hparts
      · rw [hone] at hwrites
        obtain ⟨-, heq, rfl⟩ := singleton_eq_split hwrites
        cases heq
        rw [hafter, List.nil_append, lossless.textOf_eventsFrom, hheld]
        exact hform
      · exact .part (hparts l hl)
    | string nameExpected quote held => exact (stringRule_of_step hs).form hl _
  | @finish _ _ state _ hwrites =>
    have hl : .token l ∈ lexer.flush state ++ (lexer.mode state).closing := by
      rw [hwrites]
      simp
    exact .part (part_of_mem_finish hl)

/-! ## The form that a kind has -/

theorem wordKinds_class : ∀ kind ∈ wordKinds, kind ≠ .comment ∧ kind ≠ .operator := by
  decide

theorem numberKinds_class :
    ∀ kind ∈ numberKinds, kind ≠ .comment ∧ kind ≠ .directive ∧ kind ≠ .operator := by
  decide

namespace Form

variable {l : Lexeme} {rest : List Char}

/-- A comment or a directive that begins as a block comment is one. -/
theorem isBlock (h : Form l rest) (hkind : l.kind = .comment ∨ l.kind = .directive)
    (hopening : blockOpening <+: l.text) : IsBlock l.kind l.text rest := by
  have hother {sign text : List Char} (hsign : sign <+: text) (hopening : blockOpening <+: text)
      (hlength : sign.length ≤ blockOpening.length) : sign <+: blockOpening :=
    List.prefix_of_prefix_length_le hsign hopening hlength
  cases h with
  | block _ h => exact h
  | line h =>
    rcases h with hslashes | hhash
    · exact absurd (hother hslashes.begins hopening (by decide)) (by decide)
    · exact absurd (hother hhash.begins hopening (by decide)) (by decide)
  | number hnumber =>
    obtain ⟨hcomment, hdirective, -⟩ := numberKinds_class _ hnumber
    exact absurd hkind (not_or.mpr ⟨hcomment, hdirective⟩)
  | word _ h =>
    obtain ⟨more, rfl⟩ := hopening
    cases h.word
  | part hpart =>
    rcases hkind with hkind | hkind
    · rw [hkind] at hpart
      cases hpart
    · rw [hkind] at hpart
      cases hpart
  | _ => rcases hkind with hkind | hkind <;> cases hkind

/-- Any other comment goes to the end of its line. -/
theorem isLineComment (h : Form l rest) (hkind : l.kind = .comment)
    (hopening : ¬ blockOpening <+: l.text) : IsLineComment l.text rest := by
  cases h with
  | block _ h =>
    obtain ⟨body, -, htext⟩ := h.body
    exact absurd ⟨_, htext.symm⟩ hopening
  | line h => exact h
  | number hnumber => exact absurd hkind (numberKinds_class _ hnumber).1
  | word hword => exact absurd hkind (wordKinds_class _ hword).1
  | part hpart =>
    rw [hkind] at hpart
    cases hpart
  | _ => cases hkind

/-- An operator is an operator. -/
theorem isOperator (h : Form l rest) (hkind : l.kind = .operator) : IsOperator l.text rest := by
  cases h with
  | block hblock =>
    rcases hblock with rfl | rfl
    · cases hkind
    · cases hkind
  | operator h => exact h
  | number hnumber => exact absurd hkind (numberKinds_class _ hnumber).2.2
  | word hword => exact absurd hkind (wordKinds_class _ hword).2
  | part hpart =>
    rw [hkind] at hpart
    cases hpart
  | _ => cases hkind

/-- Anything else is a word. -/
theorem isWholeWord (h : Form l rest) (hpart : l.kind.isStringPart = false)
    (hkind : l.kind ∉ [.space, .comment, .operator, .error] ++ numberKinds)
    (hblock : ¬ (l.kind = .directive ∧ blockOpening <+: l.text)) (hconstant : l ≠ nullConstant) :
    IsWholeWord l.text rest := by
  cases h with
  | block hwhich h =>
    obtain ⟨body, -, htext⟩ := h.body
    rcases hwhich with rfl | rfl
    · exact absurd ⟨rfl, _, htext.symm⟩ hblock
    · exact absurd (by simp) hkind
  | number hnumber => exact absurd (List.mem_append_right _ hnumber) hkind
  | constant => exact absurd rfl hconstant
  | word _ h => exact h
  | part h => cases hpart.symm.trans h
  | _ => exact absurd (by simp) hkind

end Form

/-- Outside strings there are no parts of strings. -/
theorem not_part_of_outside {source : List Char} {before after : List (Piece Lexeme)} {l : Lexeme}
    (he : Language.query.events source = before ++ .token l :: after)
    (houtside : Mode.initial.afterAll? before = some .initial) : l.kind.isStringPart = false := by
  have hnested := Language.query.nested_events source
  rw [he, Mode.afterAll?_append, houtside, Option.bind_some, Mode.afterAll?_cons] at hnested
  obtain ⟨m, hm, -⟩ := Option.bind_eq_some_iff.mp hnested
  cases hpart : l.kind.isStringPart with
  | false => rfl
  | true => simp [Mode.after?, hpart] at hm

end QueryLexer

/-- The tokens of a query, in a source of at most 2³² − 2 characters, by their
kinds. Layout is all the spaces, or a continued line. A comment or directive
that begins with `/*` is a block comment, and a directive exactly if `!`
follows; it goes through the first `*/` behind that opening, or to the end of
the source. Any other comment goes to the end of its line. An operator is one
character that begins neither a comment nor a number. What else stands outside
strings and is neither a number, an error nor the constant `\N`, is a word. -/
theorem tokenize_query_grammar (source : List Char) (hsize : source.length ≤ sourceBound) :
    ∃ stream, tokenize .query source = .ok (.ok stream) ∧ textOf stream.bare = source ∧
      ∀ before l after, stream.bare = before ++ .token l :: after →
        (l.kind = .space → IsLayout l.text (textOf after)) ∧
        (l.kind = .comment ∨ l.kind = .directive → QueryLexer.blockOpening <+: l.text →
          QueryLexer.IsBlock l.kind l.text (textOf after)) ∧
        (l.kind = .comment → ¬ QueryLexer.blockOpening <+: l.text →
          QueryLexer.IsLineComment l.text (textOf after)) ∧
        (l.kind = .operator → QueryLexer.IsOperator l.text (textOf after)) ∧
        (Mode.initial.afterAll? before = some .initial →
          l.kind ∉ [.space, .comment, .operator, .error] ++ QueryLexer.numberKinds →
          ¬ (l.kind = .directive ∧ QueryLexer.blockOpening <+: l.text) →
          l ≠ QueryLexer.nullConstant → QueryLexer.IsWholeWord l.text (textOf after)) := by
  refine ⟨_, tokenize_eq hsize, ?_, fun before l after h => ?_⟩
  · rw [Language.bare_stream, Language.textOf_events]
  · rw [Language.bare_stream] at h
    have hform := QueryLexer.form_of_events h
    refine ⟨Language.isLayout h, hform.isBlock, hform.isLineComment, hform.isOperator, ?_⟩
    intro houtside hkind hblock hconstant
    exact hform.isWholeWord (QueryLexer.not_part_of_outside h houtside) hkind hblock hconstant

/-- A directive that is closed at once, in front of a point and a word that is
a directive as well. -/
theorem tokenize_query_grammar_directives :
    ∃ stream, tokenize .query ['/', '*', '!', '*', '/', '.', 'A', 's', 'c'] = .ok (.ok stream) ∧
      stream.bare = [.token ⟨.directive, ['/', '*', '!', '*', '/']⟩, .token ⟨.operator, ['.']⟩,
        .token ⟨.ident, ['A', 's', 'c']⟩] ∧
      QueryLexer.IsBlock .directive ['/', '*', '!', '*', '/'] ['.', 'A', 's', 'c'] ∧
      QueryLexer.IsOperator ['.'] ['A', 's', 'c'] ∧ QueryLexer.IsWholeWord ['A', 's', 'c'] [] := by
  obtain ⟨stream, hstream, -, hforms⟩ :=
    tokenize_query_grammar ['/', '*', '!', '*', '/', '.', 'A', 's', 'c'] (by decide)
  cases hstream.symm.trans (tokenize_eq (by decide))
  have hbare : (Language.stream .query ['/', '*', '!', '*', '/', '.', 'A', 's', 'c']).bare =
      [.token ⟨.directive, ['/', '*', '!', '*', '/']⟩, .token ⟨.operator, ['.']⟩,
        .token ⟨.ident, ['A', 's', 'c']⟩] := by
    decide +kernel
  obtain ⟨-, hblock, -⟩ := hforms [] _ _ hbare
  obtain ⟨-, -, -, hoperator, -⟩ := hforms [_] _ _ hbare
  obtain ⟨-, -, -, -, hword⟩ := hforms [_, _] _ _ hbare
  exact ⟨_, hstream, hbare, hblock (.inr rfl) ⟨_, rfl⟩, hoperator rfl,
    hword rfl (by decide) nofun nofun⟩

end Highlight1C
