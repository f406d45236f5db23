import Highlight1C.Proofs.Pieces

/-!
# Names in module code

A word of module code is a name, whatever it means elsewhere, when the token
before it announces one: a dot, or a word such as `function`
(`ModuleLexer.announces`). Layout, comments, preprocessor lines, directives and
unrecognised characters stand aside: the token that counts is the last one
that is none of these (`ModuleLexer.lastNoted`).

Every move writes one lexeme. If it stands aside, the flag of the lexer stays
as it is, and otherwise the flag says whether that lexeme announces a name
(`notes_of_step`). So along a run the flag is told by the last lexeme that was
noted (`nameFollows_eq`), and with it the kind of every word
(`tokenize_names`).
-/

namespace Highlight1C

namespace ModuleLexer

open Text

/-! ## What announces a name -/

/-- The kinds of tokens that stand aside: they do not come between a word and
what announces it. -/
def isAside : TokenKind → Bool
  | .space | .comment | .preprocessor | .directive | .error => true
  | _ => false

/-- Whether a token makes the next word a name: it is a dot, or a word that
announces one, also where that word is a name itself. -/
def announces (l : Lexeme) : Bool :=
  l == ⟨.operator, ['.']⟩ ||
    (l.kind == .ident || l.kind == .keyword) && ModuleWords.announcesName l.text

/-- The last of the tokens that do not stand aside. -/
def lastNoted (ls : List Lexeme) : Option Lexeme :=
  (ls.filter fun l => !isAside l.kind).getLast?

/-- The last one is among the later tokens, if they do not all stand aside. -/
theorem lastNoted_append (a b : List Lexeme) :
    lastNoted (a ++ b) = (lastNoted b).or (lastNoted a) := by
  simp only [lastNoted, List.filter_append, List.getLast?_append]

theorem lastNoted_singleton (l : Lexeme) :
    lastNoted [l] = if isAside l.kind then none else some l := by
  cases h : isAside l.kind <;> simp [lastNoted, h]

/-- A dot is an operator of its own. -/
theorem announces_operator {c : Char} {cs more : List Char} (h : operatorTail? c cs = some more) :
    announces ⟨.operator, c :: more⟩ = (c == '.') := by
  by_cases hc : c = '.'
  · subst hc
    have hmore : more = [] := by
      unfold operatorTail? at h
      cases cs <;> simpa [isPair, operatorChars] using h.symm
    rw [hmore]
    rfl
  · rw [Bool.eq_iff_iff]
    simp [announces, hc]

theorem isAside_word {kind : TokenKind} (hkind : kind = .ident ∨ kind = .keyword) :
    isAside kind = false := by
  rcases hkind with rfl | rfl <;> rfl

theorem announces_word {kind : TokenKind} (hkind : kind = .ident ∨ kind = .keyword)
    (text : List Char) : announces ⟨kind, text⟩ = ModuleWords.announcesName text := by
  rw [Bool.eq_iff_iff]
  rcases hkind with rfl | rfl <;> simp [announces]

/-! ## Moves -/

/-- Whether the next word is a name, in a state. -/
def State.nameFollows : State → Bool
  | .code nameFollows => nameFollows
  | .string => false

/-- A move writes the lexeme `l`, and does with the flag what the lexeme calls
for. -/
structure Notes (state : State) (move : Move State) (l : Lexeme) : Prop where
  /-- It writes no other lexeme. -/
  writes : lexemesOf move.writes = [l]
  /-- The flag stays if the lexeme stands aside, and otherwise says whether it
  announces a name. -/
  flag : move.next.nameFollows = if isAside l.kind then state.nameFollows else announces l
  /-- The kind of a word is decided by the flag. -/
  kind : l.kind = .ident ∨ l.kind = .keyword →
    l.kind = if state.nameFollows then .ident else ModuleWords.classify l.text

theorem CodeRule.notes {nameFollows : Bool} {c : Char} {cs : List Char} {move : Move State}
    (h : CodeRule nameFollows c cs move) : ∃ l, Notes (.code nameFollows) move l := by
  cases h with
  | space | preprocessor | directive | comment | error => exact ⟨_, rfl, rfl, by simp⟩
  | operator _ hop => exact ⟨_, rfl, (announces_operator hop).symm, by simp⟩
  | word hc =>
    have hkind := word_kind nameFollows hc
    refine ⟨_, rfl, ?_, fun _ => rfl⟩
    rw [isAside_word hkind, announces_word hkind]
    exact (if_neg Bool.false_ne_true).symm
  | opening | float | integer => exact ⟨_, rfl, rfl, by simp⟩

theorem StringRule.notes {c : Char} {cs : List Char} {move : Move State}
    (h : StringRule c cs move) : ∃ l, Notes .string move l := by
  cases h <;> exact ⟨_, rfl, rfl, by simp⟩

/-- Every move writes one lexeme, and the flag goes by it. -/
theorem notes_of_step {state : State} {c : Char} {cs : List Char} {move : Move State}
    (hs : lexer.step state c cs = some move) : ∃ l, Notes state move l := by
  cases state with
  | code nameFollows => exact (codeRule_of_step hs).notes
  | string => exact (stringRule_of_step hs).notes

/-! ## Runs -/

/-- Along a run, the flag says whether the last lexeme that does not stand
aside announces a name. -/
theorem nameFollows_eq {source rest : List Char} {written : List (Piece Lexeme)} {state : State}
    (hr : lexer.Reaches source written state rest) :
    state.nameFollows = (lastNoted (lexemesOf written)).any announces := by
  induction hr with
  | start => rfl
  | move _ hs ih =>
    obtain ⟨l, hnotes⟩ := notes_of_step hs
    rw [hnotes.flag, lexemesOf_append, hnotes.writes, lastNoted_append, lastNoted_singleton]
    split
    · exact ih
    · rfl

/-- The kind of a word: it is a name if one is announced, and otherwise what
the word means. -/
theorem kind_of_events {source : List Char} {before after : List (Piece Lexeme)} {w : Lexeme}
    (he : Language.module.events source = before ++ .token w :: after)
    (hw : w.kind = .ident ∨ w.kind = .keyword) :
    w.kind = if (lastNoted (lexemesOf before)).any announces then .ident
      else ModuleWords.classify w.text := by
  obtain ⟨state, c, cs, move, hmove⟩ := writesToken he
  obtain ⟨written, hr, hbefore⟩ := hmove.before
  obtain ⟨l, hnotes⟩ := notes_of_step hmove.step
  have hl : w = l := List.singleton_inj.mp (hmove.writes.symm.trans hnotes.writes)
  rw [hbefore, ← nameFollows_eq hr]
  exact hl ▸ hnotes.kind (hl ▸ hw)

end ModuleLexer

/-- The kinds of names and of words of the language in module code, in a
source of at most 2³² − 2 characters. What counts is the nearest token before
the word that is neither layout, comment, preprocessor line, directive nor an
unrecognised character. If it is a dot, or a name or word of the language that
reads `procedure` or `function` in lower case, in English or in Russian, then
the word is a name; in any other case, also where there is no such token, it
has the kind that it has in the word lists. -/
theorem tokenize_names (source : List Char) (hsize : source.length ≤ sourceBound) :
    ∃ stream, tokenize .module source = .ok (.ok stream) ∧
      ∀ before w after, stream.lexemes = before ++ w :: after →
        w.kind = .ident ∨ w.kind = .keyword →
        w.kind = if (ModuleLexer.lastNoted before).any ModuleLexer.announces then .ident
          else ModuleWords.classify w.text := by
  refine ⟨_, tokenize_eq hsize, fun before w after h hw => ?_⟩
  rw [Language.lexemes_stream] at h
  obtain ⟨front, back, hevents, hfront, -⟩ := lexemesOf_eq_split h
  rw [← hfront]
  exact ModuleLexer.kind_of_events hevents hw

/-- The word `function` behind a dot is a name, and still announces one, over
a preprocessor line. -/
theorem tokenize_names_function :
    ∃ stream before w,
      tokenize .module ['.', 'f', 'u', 'n', 'c', 't', 'i', 'o', 'n', '\n', '#', '\n', 'i', 'f'] =
        .ok (.ok stream) ∧
      stream.lexemes = before ++ [w] ∧ w.text = ['i', 'f'] ∧
      ModuleLexer.lastNoted before = some ⟨.ident, ['f', 'u', 'n', 'c', 't', 'i', 'o', 'n']⟩ ∧
      w.kind = .ident := by
  obtain ⟨stream, hstream, hkinds⟩ := tokenize_names
    ['.', 'f', 'u', 'n', 'c', 't', 'i', 'o', 'n', '\n', '#', '\n', 'i', 'f'] (by decide)
  cases hstream.symm.trans (tokenize_eq (by decide))
  have hlexemes : (Language.stream .module
      ['.', 'f', 'u', 'n', 'c', 't', 'i', 'o', 'n', '\n', '#', '\n', 'i', 'f']).lexemes =
      [⟨.operator, ['.']⟩, ⟨.ident, ['f', 'u', 'n', 'c', 't', 'i', 'o', 'n']⟩, ⟨.space, ['\n']⟩,
        ⟨.preprocessor, ['#']⟩, ⟨.space, ['\n']⟩] ++ ⟨.ident, ['i', 'f']⟩ :: [] := by
    decide +kernel
  refine ⟨_, _, _, hstream, hlexemes, rfl, rfl, (hkinds _ _ _ hlexemes (.inl rfl)).trans (if_pos ?_)⟩
  decide +kernel

end Highlight1C
