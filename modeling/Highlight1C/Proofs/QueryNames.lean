import Highlight1C.Proofs.Groups
import Highlight1C.Proofs.QueryCutting

/-!
# Names in queries

A word of a query is a name, whatever it means elsewhere, when one is due: a
dot stands directly before a letter, and no word has come since (`NameDue`).
The flag in the states of the lexer says just that of what has been written
(`nameExpected_iff`); this is proved by induction along the run, from what each
move does to the flag (`effect_of_step`). So the pieces before a word give its
kind (`kind_of_word`), for every word that the lexer takes (`tokenize_words`).

The letter behind the dot need not begin a word: it can stand before a string.
Then the string is passed over, and the next word is a name even if it begins
with `@`. There is no other way for such a word not to be a variable
(`tokenize_variables`).
-/

namespace Highlight1C

open Text

namespace QueryLexer

/-! ## Words -/

/-- Whether a text is a name: a letter or an underscore, and letters, digits
and underscores. -/
def isName : List Char → Bool
  | c :: cs => isNameStart c && cs.all isWordChar
  | [] => false

/-- Whether a text is a word: a name, perhaps with `@` in front. -/
def isWordText : List Char → Bool
  | c :: cs => if c = '@' then isName cs else isName (c :: cs)
  | [] => false

/-- A word that is not a part of a string. -/
structure IsWord (l : Lexeme) : Prop where
  outside : l.kind.isStringPart = false
  text : isWordText l.text = true

/-- A dot, as an operator. -/
def dot : Lexeme := ⟨.operator, ['.']⟩

theorem not_isWord_of_part {l : Lexeme} (h : l.kind.isStringPart = true) : ¬ IsWord l := by
  intro hl
  cases h.symm.trans hl.outside

theorem not_isWord_of_text {l : Lexeme} (h : isWordText l.text = false) : ¬ IsWord l := by
  intro hl
  cases h.symm.trans hl.text

theorem not_isWord_dot : ¬ IsWord dot := not_isWord_of_text rfl

theorem ne_dot_of_part {l : Lexeme} (h : l.kind.isStringPart = true) : l ≠ dot := by
  rintro rfl
  cases h

theorem isWordText_of_wordTail? {c : Char} {cs more : List Char} (h : wordTail? c cs = some more) :
    isWordText (c :: more) = true := by
  have hall (ds : List Char) : (ds.takeWhile isWordChar).all isWordChar = true := List.all_takeWhile
  unfold wordTail? at h
  split at h
  · next hc =>
    split at h
    · split at h
      · next hd =>
        cases h
        simp [isWordText, hc, isName, hd, hall]
      · cases h
    · cases h
  · next hc =>
    split at h
    · next hstart =>
      cases h
      simp [isWordText, hc, isName, hstart, hall]
    · cases h

theorem wordTail?_ne_none {c : Char} (hc : isNameStart c = true) (cs : List Char) :
    wordTail? c cs ≠ none := by
  have hat : c ≠ '@' := by
    rintro rfl
    exact absurd hc (by decide)
  simp [wordTail?, hat, hc]

/-- The characters with which the rules begin that are not for words or
strings. -/
def nonWordChars : List Char :=
  [' ', '\t', '\n', '\x0b', '\x0c', '\r', '\\', '#'] ++ operatorChars ++ numericOperatorChars ++ digits

theorem nonWordChars_class : ∀ c ∈ nonWordChars, c ≠ '@' ∧ isNameStart c = false :=
  forall_mem_of_all (by decide)

theorem not_isWordText {c : Char} (hc : c ∈ nonWordChars) (more : List Char) :
    isWordText (c :: more) = false := by
  obtain ⟨hat, hstart⟩ := nonWordChars_class c hc
  simp [isWordText, hat, isName, hstart]

theorem mem_nonWordChars_of_isSpace {c : Char} (h : isSpace c = true) : c ∈ nonWordChars := by
  simp only [isSpace, Bool.or_eq_true, beq_iff_eq] at h
  rcases h with ((((rfl | rfl) | rfl) | rfl) | rfl) | rfl <;> decide

theorem mem_nonWordChars_of_isOperator {c : Char} {cs : List Char} (h : isOperator c cs = true) :
    c ∈ nonWordChars := by
  simp only [isOperator, Bool.or_eq_true, Bool.and_eq_true, List.contains_iff_mem] at h
  simp only [nonWordChars, List.mem_append]
  rcases h with h | ⟨h, -⟩
  · exact .inl (.inl (.inr h))
  · exact .inl (.inr h)

/-- A decimal number begins with a digit, a sign or a point. -/
theorem mem_nonWordChars_of_decimalTail? {c : Char} {cs more : List Char} {kind : TokenKind}
    (h : decimalTail? c cs = some (kind, more)) : c ∈ nonWordChars := by
  unfold decimalTail? at h
  split at h
  · next hsign =>
    have hmem := mem_numericOperatorChars hsign
    simp [nonWordChars, hmem]
  · obtain ⟨⟨kind', number⟩, hnumber, -⟩ := Option.map_eq_some_iff.mp h
    by_cases hdigit : c.isDigit = true
    · exact List.mem_append_right _ (mem_digits hdigit)
    · by_cases hpoint : c = '.'
      · rw [hpoint]
        decide
      · simp [decimal?, hdigit, fraction?_cons, hpoint] at hnumber

/-! ## Moves -/

/-- The rules outside strings, as far as words go. -/
inductive NameRule (nameExpected : Bool) (c : Char) (cs : List Char) : Move State → Prop where
  | other {kind : TokenKind} {more : List Char} (hc : isNameStart c = false)
    (htext : isWordText (c :: more) = false) (hdot : (⟨kind, c :: more⟩ : Lexeme) ≠ dot) :
    NameRule nameExpected c cs (.token kind c more (.code nameExpected))
  | operator (hc : c ∈ nonWordChars) :
    NameRule nameExpected c cs
      (.token .operator c [] (.code (nameExpected || (c == '.' && cs.head?.any isNameStart))))
  | opening {modifier : List Char} {quote : Char} (h : stringOpening? c cs = some (modifier, quote)) :
    NameRule nameExpected c cs (openingMove nameExpected modifier quote)
  | word {more : List Char} (h : wordTail? c cs = some more) :
    NameRule nameExpected c cs (.token (wordKind nameExpected (c :: more)) c more (.code false))

theorem CodeRule.nameRule {nameExpected : Bool} {c : Char} {cs : List Char} {move : Move State}
    (h : CodeRule nameExpected c cs move) : NameRule nameExpected c cs move := by
  have other {kind : TokenKind} {more : List Char} (hc : c ∈ nonWordChars)
      (hkind : kind ≠ .operator) :
      NameRule nameExpected c cs (.token kind c more (.code nameExpected)) :=
    .other (nonWordChars_class c hc).2 (not_isWordText hc more)
      fun h => hkind (congrArg Lexeme.kind h)
  cases h with
  | space hc => exact other (mem_nonWordChars_of_isSpace hc) nofun
  | continuation hc _ => exact other (hc ▸ by decide) nofun
  | lineComment h =>
    refine other ?_ nofun
    unfold lineComment? at h
    split at h
    · next hc => rcases hc with rfl | ⟨rfl, -⟩ <;> decide
    · cases h
  | blockComment h =>
    have hc : c = '/' := by
      unfold blockComment? at h
      split at h
      · cases h
      · next hc => exact Decidable.not_not.mp hc
    have hmem : c ∈ nonWordChars := hc ▸ by decide
    refine .other (nonWordChars_class c hmem).2 (not_isWordText hmem _) ?_
    rw [hc]
    simp [dot]
  | operator _ _ h => exact .operator (mem_nonWordChars_of_isOperator h)
  | opening h => exact .opening h
  | word _ h => exact .word h
  | hex h =>
    refine other ?_ nofun
    unfold hexTail? at h
    split at h
    · split at h
      · next hc => exact hc.1 ▸ by decide
      · cases h
    · cases h
  | octal _ h =>
    refine other ?_ nofun
    unfold octalTail? at h
    split at h
    · next hc => exact hc ▸ by decide
    · cases h
  | decimal _ _ _ h =>
    refine other (mem_nonWordChars_of_decimalTail? h) ?_
    obtain ⟨-, rfl | rfl⟩ := decimalTail?_isPrefix h <;> exact nofun
  | constant hc _ => exact other (hc ▸ by decide) nofun
  | error _ _ _ _ hword =>
    have hc : isNameStart c = false := by
      by_contra hstart
      exact wordTail?_ne_none (Bool.not_eq_false _ ▸ hstart) cs hword
    exact .other hc (by simp [isWordText, isName, hc]) nofun

/-- Whether the next word is a name, in a state. -/
def State.nameExpected : State → Bool
  | .code nameExpected => nameExpected
  | .string nameExpected _ _ => nameExpected

/-- What a move does to whether the next word is a name. -/
inductive Effect (state : State) (cs : List Char) (move : Move State) : Prop where
  /-- It writes neither words nor dots, and keeps the flag. -/
  | keeps (writes : ∀ l, .token l ∈ move.writes → ¬ IsWord l ∧ l ≠ dot)
    (flag : move.next.nameExpected = state.nameExpected)
  /-- It writes a word, whose kind the flag decides, and clears the flag. -/
  | clears {l : Lexeme} (writes : move.writes = [.token l]) (isWord : IsWord l)
    (kind : l.kind = wordKind state.nameExpected l.text) (flag : move.next.nameExpected = false)
  /-- It writes a dot, and sets the flag if a letter comes next. -/
  | sets (writes : move.writes = [.token dot]) (further : move.further = 0)
    (next : move.next = .code (state.nameExpected || cs.head?.any isNameStart))

/-- What is written at the end are parts of strings. -/
theorem part_of_mem_finish {state : State} {l : Lexeme}
    (hl : .token l ∈ lexer.flush state ++ (lexer.mode state).closing) :
    l.kind.isStringPart = true := by
  rcases List.mem_append.mp hl with hl | hl
  · cases state with
    | code => exact absurd hl List.not_mem_nil
    | string => exact part_of_mem_release hl
  · exact absurd hl (Mode.not_token_mem_closing _ _)

theorem NameRule.effect {nameExpected : Bool} {c : Char} {cs : List Char} {move : Move State}
    (h : NameRule nameExpected c cs move) : Effect (.code nameExpected) cs move := by
  cases h with
  | other _ htext hdot =>
    refine .keeps (fun l hl => ?_) rfl
    cases List.mem_singleton.mp hl
    exact ⟨not_isWord_of_text htext, hdot⟩
  | operator hc =>
    by_cases hpoint : c = '.'
    · subst hpoint
      exact .sets rfl rfl (by simp [Move.token, State.nameExpected])
    · refine .keeps (fun l hl => ?_) (by simp [Move.token, State.nameExpected, hpoint])
      cases List.mem_singleton.mp hl
      exact ⟨not_isWord_of_text (not_isWordText hc []), by simp [dot, hpoint]⟩
  | opening =>
    refine .keeps (fun l hl => ?_) rfl
    have hpart := part_of_mem_openingMove hl
    exact ⟨not_isWord_of_part hpart, ne_dot_of_part hpart⟩
  | word h => exact .clears rfl ⟨(wordKind_class _ _).1, isWordText_of_wordTail? h⟩ rfl rfl

/-- Within strings neither words nor dots are written. -/
theorem StringRule.not_isWord {nameExpected : Bool} {quote : Char} {held : List Char} {c : Char}
    {cs : List Char} {move : Move State} (h : StringRule nameExpected quote held c cs move) :
    ∀ l, .token l ∈ move.writes → ¬ IsWord l ∧ l ≠ dot := by
  have part {l : Lexeme} (hpart : l.kind.isStringPart = true) : ¬ IsWord l ∧ l ≠ dot :=
    ⟨not_isWord_of_part hpart, ne_dot_of_part hpart⟩
  intro l hl
  cases h with
  | plain | doubled | foreign => cases hl
  | closing | escape =>
    rcases List.mem_append.mp hl with hl | hl
    · exact part (part_of_mem_release hl)
    · simp at hl
      cases hl
      exact part rfl
  | broken hc =>
    rcases List.mem_append.mp hl with hl | hl
    · exact part (part_of_mem_release hl)
    · simp at hl
      cases hl
      exact ⟨not_isWord_of_text (hc ▸ rfl), nofun⟩

theorem StringRule.effect {nameExpected : Bool} {quote : Char} {held : List Char} {c : Char}
    {cs : List Char} {move : Move State} (h : StringRule nameExpected quote held c cs move) :
    Effect (.string nameExpected quote held) cs move := by
  refine .keeps h.not_isWord ?_
  cases h <;> rfl

theorem effect_of_step {state : State} {c : Char} {cs : List Char} {move : Move State}
    (hs : lexer.step state c cs = some move) : Effect state cs move := by
  cases state with
  | code nameExpected => exact (codeRule_of_step hs).nameRule.effect
  | string nameExpected quote held => exact (stringRule_of_step hs).effect

/-- A word is written by the rule for words. -/
theorem word_of_step {state : State} {c : Char} {cs : List Char} {move : Move State} {w : Lexeme}
    (hs : lexer.step state c cs = some move) (hl : .token w ∈ move.writes) (hw : IsWord w) :
    ∃ nameExpected more, state = .code nameExpected ∧ wordTail? c cs = some more ∧
      move = .token (wordKind nameExpected (c :: more)) c more (.code false) := by
  cases state with
  | code nameExpected =>
    cases (codeRule_of_step hs).nameRule with
    | other _ htext _ =>
      cases List.mem_singleton.mp hl
      exact absurd hw (not_isWord_of_text htext)
    | operator hc =>
      cases List.mem_singleton.mp hl
      exact absurd hw (not_isWord_of_text (not_isWordText hc []))
    | opening => exact absurd hw (not_isWord_of_part (part_of_mem_openingMove hl))
    | word h => exact ⟨nameExpected, _, rfl, h, rfl⟩
  | string nameExpected quote held => exact absurd hw ((stringRule_of_step hs).not_isWord w hl).1

/-! ## When a name is due -/

/-- A name is due behind the pieces `before`, in front of the text `ahead`: a
dot stands directly before a letter or an underscore, and there is no word
behind it. -/
def NameDue (before : List (Piece Lexeme)) (ahead : List Char) : Prop :=
  ∃ first last, before = first ++ .token dot :: last ∧
    (textOf last ++ ahead).head?.any isNameStart = true ∧ ∀ l, .token l ∈ last → ¬ IsWord l

section

variable {written writes : List (Piece Lexeme)} {ahead : List Char}

/-- A name is due behind pieces and further ones if it is due behind the
further ones, or behind the first, and there is no word among the further
ones. -/
theorem nameDue_append :
    NameDue (written ++ writes) ahead ↔
      NameDue written (textOf writes ++ ahead) ∧ (∀ l, .token l ∈ writes → ¬ IsWord l) ∨
        NameDue writes ahead := by
  constructor
  · rintro ⟨first, last, heq, hhead, hlast⟩
    rcases append_eq_split heq with ⟨between, -, hwrites⟩ | ⟨rest, hwritten⟩
    · exact .inr ⟨between, last, hwrites, hhead, hlast⟩
    · rw [hwritten, List.append_assoc, List.cons_append] at heq
      have hrest : rest ++ writes = last := List.tail_eq_of_cons_eq (List.append_cancel_left heq)
      subst hrest
      rw [textOf_append, List.append_assoc] at hhead
      exact .inl ⟨⟨first, rest, hwritten, hhead, fun l hl => hlast l (List.mem_append_left _ hl)⟩,
        fun l hl => hlast l (List.mem_append_right _ hl)⟩
  · rintro (⟨⟨first, last, rfl, hhead, hlast⟩, hwrites⟩ | ⟨first, last, rfl, hhead, hlast⟩)
    · refine ⟨first, last ++ writes, by simp, by rwa [textOf_append, List.append_assoc], ?_⟩
      exact fun l hl => (List.mem_append.mp hl).elim (hlast l) (hwrites l)
    · exact ⟨written ++ first, last, by simp, hhead, hlast⟩

theorem not_nameDue_of_not_mem (h : .token dot ∉ written) : ¬ NameDue written ahead := by
  rintro ⟨first, last, rfl, -⟩
  simp at h

theorem nameDue_dot : NameDue [.token dot] ahead ↔ ahead.head?.any isNameStart = true := by
  constructor
  · rintro ⟨first, last, heq, hhead, -⟩
    obtain ⟨-, -, rfl⟩ := singleton_eq_split heq
    exact hhead
  · exact fun hhead => ⟨[], [], rfl, hhead, by simp⟩

end

/-- The flag keeps step: it is set after a move if and only if a name is due
then. -/
theorem Effect.nameDue {state : State} {c : Char} {cs : List Char} {move : Move State}
    (h : Effect state cs move) (hk : lexer.Keeps held state c cs move)
    {written : List (Piece Lexeme)}
    (hdue : state.nameExpected = true ↔ NameDue written (held state ++ c :: cs)) :
    move.next.nameExpected = true ↔
      NameDue (written ++ move.writes) (held move.next ++ cs.drop move.further) := by
  rw [nameDue_append, hk.text_drop, ← hdue]
  cases h with
  | keeps hwrites hflag =>
    have hnone : ¬ NameDue move.writes (held move.next ++ cs.drop move.further) :=
      not_nameDue_of_not_mem fun hmem => (hwrites dot hmem).2 rfl
    have hall : ∀ l, .token l ∈ move.writes → ¬ IsWord l := fun l hl => (hwrites l hl).1
    rw [hflag, or_iff_left hnone, and_iff_left hall]
  | @clears l hwrites hword _ hflag =>
    have hmem : .token dot ∉ move.writes := by
      rw [hwrites, List.mem_singleton]
      intro heq
      cases heq
      exact not_isWord_dot hword
    have hnone : ¬ NameDue move.writes (held move.next ++ cs.drop move.further) :=
      not_nameDue_of_not_mem hmem
    rw [hflag, or_iff_left hnone]
    exact iff_of_false Bool.false_ne_true fun h => h.2 l (by rw [hwrites]; simp) hword
  | sets hwrites hfurther hnext =>
    have hall : ∀ l, .token l ∈ move.writes → ¬ IsWord l := by
      intro l hl
      rw [hwrites] at hl
      cases List.mem_singleton.mp hl
      exact not_isWord_dot
    rw [and_iff_left hall, hnext, hfurther, hwrites, nameDue_dot]
    simp [State.nameExpected, held]

/-- Along a run, the flag says whether a name is due. -/
theorem nameExpected_iff {source rest : List Char} {written : List (Piece Lexeme)} {state : State}
    (hr : lexer.Reaches source written state rest) :
    state.nameExpected = true ↔ NameDue written (held state ++ rest) := by
  induction hr with
  | start => simp [lexer, State.nameExpected, not_nameDue_of_not_mem]
  | @move written state c cs move _ hs ih =>
    obtain ⟨_, hs', hk⟩ := lossless.step state c cs
    cases hs.symm.trans hs'
    exact (effect_of_step hs).nameDue hk ih

/-- The kind of a word: it is a name when one is due, and otherwise what the
word means. -/
theorem kind_of_word {source : List Char} {before after : List (Piece Lexeme)} {w : Lexeme}
    (he : Language.query.events source = before ++ .token w :: after) (hw : IsWord w) :
    (NameDue before (w.text ++ textOf after) → w.kind = .ident) ∧
      (¬ NameDue before (w.text ++ textOf after) → w.kind = wordKind false w.text) := by
  cases lossless.writes he with
  | @move written first last state c cs move hr hs hwrites hbefore hafter =>
    obtain ⟨_, hs', hk⟩ := lossless.step state c cs
    cases hs.symm.trans hs'
    cases effect_of_step hs with
    | keeps hnone _ => exact absurd hw (hnone w (by rw [hwrites]; simp)).1
    | clears hword _ hkind _ =>
      obtain ⟨rfl, heq, rfl⟩ := singleton_eq_split (hword.symm.trans hwrites)
      cases heq
      rw [List.append_nil] at hbefore
      have hahead : w.text ++ textOf after = held state ++ c :: cs := by
        rw [hafter, List.nil_append, lossless.textOf_eventsFrom, ← hk.text_drop, hword,
          textOf_token, textOf_nil, List.append_nil]
      rw [hbefore, hahead, ← nameExpected_iff hr, hkind]
      refine ⟨fun hflag => ?_, fun hflag => ?_⟩
      · rw [hflag]
        rfl
      · rw [(Bool.not_eq_true _).mp hflag]
    | sets hdot _ _ =>
      obtain ⟨-, heq, -⟩ := singleton_eq_split (hdot.symm.trans hwrites)
      cases heq
      exact absurd hw not_isWord_dot
  | finish _ hwrites =>
    exact absurd hw (not_isWord_of_part (part_of_mem_finish (by rw [hwrites]; simp)))

/-! ## Words that the lexer takes -/

/-- The run on a source comes to the rule for words behind the pieces
`before`, and takes the word `w` by it. -/
def TakesWord (source : List Char) (before : List (Piece Lexeme)) (w : Lexeme) : Prop :=
  ∃ nameExpected c cs more, lexer.Reaches source before (.code nameExpected) (c :: cs) ∧
    wordTail? c cs = some more ∧
    codeMove nameExpected c cs = .token (wordKind nameExpected (c :: more)) c more (.code false) ∧
    w = ⟨wordKind nameExpected (c :: more), c :: more⟩

/-- The words of a query are those that the rule for words takes. -/
theorem isWord_iff_takesWord {source : List Char} {before after : List (Piece Lexeme)} {w : Lexeme}
    (he : Language.query.events source = before ++ .token w :: after) :
    IsWord w ↔ TakesWord source before w := by
  constructor
  · intro hw
    cases lossless.writes he with
    | @move written first last state c cs move hr hs hwrites hbefore hafter =>
      obtain ⟨nameExpected, more, rfl, hword, rfl⟩ := word_of_step hs (by rw [hwrites]; simp) hw
      obtain ⟨rfl, heq, rfl⟩ := singleton_eq_split hwrites
      cases heq
      rw [List.append_nil] at hbefore
      exact ⟨nameExpected, c, cs, more, hbefore ▸ hr, hword, Option.some.inj hs, rfl⟩
    | finish _ hwrites =>
      exact absurd hw (not_isWord_of_part (part_of_mem_finish (by rw [hwrites]; simp)))
  · rintro ⟨nameExpected, c, cs, more, -, hword, -, rfl⟩
    exact ⟨(wordKind_class _ _).1, isWordText_of_wordTail? hword⟩

/-! ## Variables -/

/-- A string with a modifier stands directly behind a dot, and there is no
word behind the modifier. -/
def BehindModifier (before : List (Piece Lexeme)) : Prop :=
  ∃ first modifier last,
    before = first ++ .token dot :: .beginGroup :: .token ⟨.modifier, modifier⟩ :: last ∧
      ∀ l, .token l ∈ last → ¬ IsWord l

/-- Behind a dot, reading goes on outside strings. -/
theorem events_dot {source : List Char} {before after : List (Piece Lexeme)}
    (he : Language.query.events source = before ++ .token dot :: after) :
    ∃ nameExpected text, after = lexer.eventsFrom (.code nameExpected) text := by
  cases lossless.writes he with
  | @move _ first last state c cs move _ hs hwrites _ hafter =>
    cases effect_of_step hs with
    | keeps hnone _ => exact absurd rfl (hnone dot (by rw [hwrites]; simp)).2
    | clears hword hisWord _ _ =>
      obtain ⟨-, heq, -⟩ := singleton_eq_split (hword.symm.trans hwrites)
      cases heq
      exact absurd hisWord not_isWord_dot
    | sets hdot _ hnext =>
      obtain ⟨-, -, rfl⟩ := singleton_eq_split (hdot.symm.trans hwrites)
      rw [hnext] at hafter
      exact ⟨_, _, hafter⟩
  | finish _ hwrites =>
    exact absurd rfl (ne_dot_of_part (part_of_mem_finish (by rw [hwrites]; simp)))

/-- A letter or an underscore begins a word, or a string with a modifier. -/
theorem eventsFrom_nameStart {c : Char} (hc : isNameStart c = true) (nameExpected : Bool)
    (cs : List Char) :
    (∃ w after, lexer.eventsFrom (.code nameExpected) (c :: cs) = .token w :: after ∧ IsWord w ∧
      w.text.head? = some c) ∨
    ∃ modifier after, lexer.eventsFrom (.code nameExpected) (c :: cs) =
      .beginGroup :: .token ⟨.modifier, modifier⟩ :: after := by
  have hs : lexer.step (.code nameExpected) c cs = some (codeMove nameExpected c cs) := rfl
  rw [lexer.eventsFrom_cons hs]
  have hrule := (codeMove_rule nameExpected c cs).nameRule
  generalize codeMove nameExpected c cs = move at hrule
  cases hrule with
  | other hother => cases hother.symm.trans hc
  | operator hother => cases (nonWordChars_class c hother).2.symm.trans hc
  | @opening modifier quote h =>
    obtain ⟨hbegin, hquote⟩ := stringOpening?_isPrefix h
    have hmodifier : modifier ≠ [] := by
      rintro rfl
      obtain ⟨rfl, -⟩ := List.cons_prefix_cons.mp hbegin
      have hnot : ∀ q ∈ quotes, isNameStart q = false := forall_mem_of_all (by decide)
      cases (hnot _ (List.contains_iff_mem.mp hquote)).symm.trans hc
    rw [openingMove, if_neg hmodifier]
    exact .inr ⟨modifier, _, rfl⟩
  | word h =>
    exact .inl ⟨_, _, rfl, ⟨(wordKind_class _ _).1, isWordText_of_wordTail? h⟩, rfl⟩

/-- A modifier begins with a letter or an underscore. -/
theorem isNameStart_of_isModifier {text : List Char} (h : IsModifier text) :
    text.head?.any isNameStart = true := by
  rcases h with ⟨c, hc, rfl⟩ | ⟨name, -, -, rfl⟩
  · have hall : ∀ d ∈ modifierLetters, isNameStart d = true := forall_mem_of_all (by decide)
    exact hall c hc
  · rfl

theorem isModifier_of_events {source modifier : List Char} {before after : List (Piece Lexeme)}
    (he : Language.query.events source =
      before ++ .beginGroup :: .token ⟨.modifier, modifier⟩ :: after) : IsModifier modifier := by
  obtain ⟨group, after', hgroup, hform⟩ := Language.groups_events he
  have hopening : ∃ quote opening rest, Language.query.Opening quote opening ∧
      group = opening ++ rest := by
    rcases hform with ⟨quote, opening, body, hopening, -, rfl⟩ |
      ⟨⟨quote, opening, body, ending, hopening, -, -, rfl⟩, -⟩
    · exact ⟨quote, opening, _, hopening, List.append_assoc ..⟩
    · exact ⟨quote, opening, _, hopening, List.append_assoc ..⟩
  obtain ⟨quote, opening, rest, ⟨-, rfl | ⟨text, htext, rfl⟩⟩, rfl⟩ := hopening
  · cases List.head_eq_of_cons_eq hgroup
  · cases List.head_eq_of_cons_eq hgroup
    exact htext

/-- Where a word begins with `@`, a name is due only behind a string with a
modifier: the sign itself is not a letter. -/
theorem nameDue_iff_behindModifier {source : List Char} {before after : List (Piece Lexeme)}
    {w : Lexeme} (he : Language.query.events source = before ++ .token w :: after) (hw : IsWord w)
    (hsign : w.text.head? = some '@') :
    NameDue before (w.text ++ textOf after) ↔ BehindModifier before := by
  constructor
  · rintro ⟨first, last, rfl, hhead, hlast⟩
    rw [List.append_assoc, List.cons_append] at he
    obtain ⟨nameExpected, text, hevents⟩ := events_dot he
    have htext : text = textOf last ++ (w.text ++ textOf after) := by
      have h := lossless.textOf_eventsFrom (.code nameExpected) text
      rw [← hevents, textOf_append, textOf_token] at h
      exact h.symm
    rw [← htext] at hhead
    cases text with
    | nil => cases hhead
    | cons c cs =>
      rcases eventsFrom_nameStart hhead nameExpected cs with
        ⟨w', after', heq, hword, hc⟩ | ⟨modifier, after', heq⟩
      · rw [heq] at hevents
        cases last with
        | nil =>
          cases hevents
          cases hsign.symm.trans hc
          have hnot : ¬ isNameStart '@' = true := by decide
          exact absurd hhead hnot
        | cons p last =>
          cases List.head_eq_of_cons_eq hevents
          exact absurd hword (hlast w' List.mem_cons_self)
      · rw [heq] at hevents
        match last with
        | [] => cases hevents
        | [_] =>
          cases hevents
          exact absurd hw (not_isWord_of_part rfl)
        | _ :: _ :: last =>
          cases hevents
          exact ⟨first, modifier, last, rfl, fun l hl => hlast l (by simp [hl])⟩
  · rintro ⟨first, modifier, last, rfl, hlast⟩
    have hgroup : Language.query.events source = (first ++ [.token dot]) ++
        .beginGroup :: .token ⟨.modifier, modifier⟩ :: (last ++ .token w :: after) := by
      rw [he]
      simp
    have hstart := isNameStart_of_isModifier (isModifier_of_events hgroup)
    refine ⟨first, _, rfl, ?_, fun l hl => ?_⟩
    · cases modifier with
      | nil => cases hstart
      | cons c cs => exact hstart
    · simp only [List.mem_cons, reduceCtorEq, Piece.token.injEq, false_or] at hl
      rcases hl with rfl | hl
      · exact not_isWord_of_part rfl
      · exact hlast l hl

end QueryLexer

/-- The kinds of the words of a query, in a source of at most 2³² − 2
characters. The words are the tokens that the rule for words takes. A word is
a name when one is due: between the word before it, or the start, and itself
there is a dot that stands directly before a letter or an underscore in the
source. Any other word is a variable if it begins with `@`, and otherwise has
the kind of the first word list that it stands in. -/
theorem tokenize_words (source : List Char) (hsize : source.length ≤ sourceBound) :
    ∃ stream, tokenize .query source = .ok (.ok stream) ∧ textOf stream.bare = source ∧
      ∀ before w after, stream.bare = before ++ .token w :: after →
        (QueryLexer.IsWord w ↔ QueryLexer.TakesWord source before w) ∧
        (QueryLexer.IsWord w →
          (QueryLexer.NameDue before (w.text ++ textOf after) → w.kind = .ident) ∧
          (¬ QueryLexer.NameDue before (w.text ++ textOf after) →
            w.kind = if w.text.head? = some '@' then .variable else QueryWords.classify w.text)) := by
  refine ⟨_, tokenize_eq hsize, ?_, fun before w after h => ?_⟩
  · rw [Language.bare_stream, Language.textOf_events]
  rw [Language.bare_stream] at h
  refine ⟨QueryLexer.isWord_iff_takesWord h, fun hw => ?_⟩
  obtain ⟨hname, hmeaning⟩ := QueryLexer.kind_of_word h hw
  exact ⟨hname, fun hnot => (hmeaning hnot).trans (if_neg Bool.false_ne_true)⟩

/-- A word of the language is a name behind a string whose modifier stands
directly behind a dot. -/
theorem tokenize_words_modifier :
    ∃ stream before w, tokenize .query ['.', 'n', '\x27', '\x27', 'o', 'r'] = .ok (.ok stream) ∧
      stream.bare = before ++ [.token w] ∧ w.text = ['o', 'r'] ∧ QueryLexer.IsWord w ∧
      QueryLexer.NameDue before ['o', 'r'] ∧ w.kind = .ident := by
  obtain ⟨stream, hstream, -, hkinds⟩ :=
    tokenize_words ['.', 'n', '\x27', '\x27', 'o', 'r'] (by decide)
  cases hstream.symm.trans (tokenize_eq (by decide))
  have hbare : (Language.stream .query ['.', 'n', '\x27', '\x27', 'o', 'r']).bare =
      [.token ⟨.operator, ['.']⟩, .beginGroup, .token ⟨.modifier, ['n']⟩,
        .token ⟨.delimiter, ['\x27']⟩, .token ⟨.delimiter, ['\x27']⟩, .endGroup] ++
        .token ⟨.ident, ['o', 'r']⟩ :: [] := by
    decide +kernel
  have hword : QueryLexer.IsWord ⟨.ident, ['o', 'r']⟩ := ⟨rfl, rfl⟩
  have hdue : QueryLexer.NameDue
      [.token ⟨.operator, ['.']⟩, .beginGroup, .token ⟨.modifier, ['n']⟩,
        .token ⟨.delimiter, ['\x27']⟩, .token ⟨.delimiter, ['\x27']⟩, .endGroup] ['o', 'r'] := by
    refine ⟨[], _, rfl, rfl, fun l hl => QueryLexer.not_isWord_of_part ?_⟩
    simp at hl
    rcases hl with rfl | rfl <;> rfl
  exact ⟨_, _, _, hstream, hbare, rfl, hword, hdue, ((hkinds _ _ _ hbare).2 hword).1 hdue⟩

/-- The words of a query that begin with `@`, in a source of at most 2³² − 2
characters: each is a variable, unless a string with a modifier stands
directly behind a dot before it, with no other word since. Then it is a name,
because the dot was followed by a letter. -/
theorem tokenize_variables (source : List Char) (hsize : source.length ≤ sourceBound) :
    ∃ stream, tokenize .query source = .ok (.ok stream) ∧
      ∀ before w after, stream.bare = before ++ .token w :: after → QueryLexer.IsWord w →
        w.text.head? = some '@' →
          (¬ QueryLexer.BehindModifier before → w.kind = .variable) ∧
            (QueryLexer.BehindModifier before → w.kind = .ident) := by
  refine ⟨_, tokenize_eq hsize, fun before w after h hw hsign => ?_⟩
  rw [Language.bare_stream] at h
  obtain ⟨hname, hmeaning⟩ := QueryLexer.kind_of_word h hw
  rw [QueryLexer.nameDue_iff_behindModifier h hw hsign] at hname hmeaning
  refine ⟨fun hnot => ?_, hname⟩
  rw [hmeaning hnot, QueryLexer.wordKind, if_neg Bool.false_ne_true, if_pos hsign]

/-- The word behind a string with a modifier is a name, and the next one is a
variable again. -/
theorem tokenize_variables_next :
    ∃ stream before w,
      tokenize .query ['.', 'n', '\x27', '\x27', 'x', '@', 'v'] = .ok (.ok stream) ∧
      stream.bare = before ++ [.token w] ∧ w.text = ['@', 'v'] ∧ w.kind = .variable := by
  obtain ⟨stream, hstream, hkind⟩ :=
    tokenize_variables ['.', 'n', '\x27', '\x27', 'x', '@', 'v'] (by decide)
  cases hstream.symm.trans (tokenize_eq (by decide))
  have hbare : (Language.stream .query ['.', 'n', '\x27', '\x27', 'x', '@', 'v']).bare =
      [.token ⟨.operator, ['.']⟩, .beginGroup, .token ⟨.modifier, ['n']⟩,
        .token ⟨.delimiter, ['\x27']⟩, .token ⟨.delimiter, ['\x27']⟩, .endGroup,
        .token ⟨.ident, ['x']⟩] ++ .token ⟨.variable, ['@', 'v']⟩ :: [] := by
    decide +kernel
  refine ⟨_, _, _, hstream, hbare, rfl, (hkind _ _ _ hbare ⟨rfl, rfl⟩ rfl).1 ?_⟩
  rintro ⟨first, modifier, last, heq, hlast⟩
  cases first with
  | nil =>
    cases heq
    exact hlast ⟨.ident, ['x']⟩ (by simp) ⟨rfl, rfl⟩
  | cons p first =>
    -- there is no second dot
    rw [List.cons_append] at heq
    have hmem : .token QueryLexer.dot ∈ first ++ .token QueryLexer.dot :: .beginGroup ::
        .token ⟨.modifier, modifier⟩ :: last := by simp
    rw [← List.tail_eq_of_cons_eq heq] at hmem
    simp [QueryLexer.dot] at hmem

/-- A word that begins with `@` and is not a variable. -/
theorem tokenize_variables_modifier :
    ∃ stream before w after,
      tokenize .query ['.', 'n', '\x27', '\x27', '@', 'v'] = .ok (.ok stream) ∧
      stream.bare = before ++ .token w :: after ∧ QueryLexer.IsWord w ∧ w.text = ['@', 'v'] ∧
      w.kind ≠ .variable := by
  have hbare : (Language.stream .query ['.', 'n', '\x27', '\x27', '@', 'v']).bare =
      [.token ⟨.operator, ['.']⟩, .beginGroup, .token ⟨.modifier, ['n']⟩,
        .token ⟨.delimiter, ['\x27']⟩, .token ⟨.delimiter, ['\x27']⟩, .endGroup] ++
        .token ⟨.ident, ['@', 'v']⟩ :: [] := by
    decide +kernel
  exact ⟨_, _, _, _, tokenize_eq (by decide), hbare, ⟨rfl, rfl⟩, rfl, nofun⟩

end Highlight1C
