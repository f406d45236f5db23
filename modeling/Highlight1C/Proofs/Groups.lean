import Highlight1C.Proofs.Doubling
import Highlight1C.Proofs.Pieces
import Mathlib.Data.List.Chain

/-!
# The groups of strings

The tokens of a string, between the markers of its group, are an opening
(`Language.Opening`), the parts between its quotes (`Language.Body`) and the
closing quote (`Language.Closed`). Only the end of the source can take the
place of the closing quote, and then nothing comes after the group
(`Language.Unclosed`); a query may end in a backslash there, which is an
error.

From every state within a string, reading on finishes the group in this way
(`ModuleLexer.finishes`, `QueryLexer.finishes`), by induction along the run.
For queries the induction carries what the content held back looks like
(`QueryLexer.Held`): a text without backslashes in which the quote is doubled.
As only an opening begins a group, this holds of every group of every source
(`tokenize_groups`).
-/

namespace Highlight1C

open Text

/-! ## The form of a string -/

namespace QueryLexer

/-- What may stand before the first quote of a string: a letter, or an
underscore and a name. -/
def IsModifier (text : List Char) : Prop :=
  (∃ c ∈ modifierLetters, text = [c]) ∨
    ∃ name, name ≠ [] ∧ (∀ c ∈ name, isAsciiWordChar c = true) ∧ text = '_' :: name

/-- A backslash and what it escapes. -/
inductive IsEscape : List Char → Prop where
  | short {digits : List Char} (length : digits.length = 4)
    (all : ∀ d ∈ digits, isHexDigit d = true) : IsEscape ('\\' :: 'u' :: digits)
  | long {digits : List Char} (length : digits.length = 8)
    (all : ∀ d ∈ digits, isHexDigit d = true) : IsEscape ('\\' :: 'U' :: digits)
  | hex {digits : List Char} (length : 1 ≤ digits.length ∧ digits.length ≤ 2)
    (all : ∀ d ∈ digits, isHexDigit d = true) : IsEscape ('\\' :: 'x' :: digits)
  | octal {digits : List Char} (length : 1 ≤ digits.length ∧ digits.length ≤ 3)
    (all : ∀ d ∈ digits, isOctalDigit d = true) : IsEscape ('\\' :: digits)
  | char (c : Char) : IsEscape ['\\', c]

end QueryLexer

namespace Language

/-- How a string that `quote` closes begins: with that quote, and in a query
perhaps with a modifier before it. -/
def Opening : Language → Char → List Lexeme → Prop
  | .module, quote, opening => quote = ModuleLexer.quote ∧ opening = [⟨.delimiter, [quote]⟩]
  | .query, quote, opening => QueryLexer.isQuote quote = true ∧
    (opening = [⟨.delimiter, [quote]⟩] ∨
      ∃ text, QueryLexer.IsModifier text ∧ opening = [⟨.modifier, text⟩, ⟨.delimiter, [quote]⟩])

/-- A part of a string between its quotes. In module code, content has no
quote in it, and a doubled quote is a character of its own; in a query,
content has no backslash in it, quotes are doubled in it, and escapes are
characters. -/
def Part : Language → Char → Lexeme → Prop
  | .module, quote, l => l.kind = .content ∧ quote ∉ l.text ∨
    l.kind = .char ∧ l.text = [quote, quote]
  | .query, quote, l => l.kind = .content ∧ '\\' ∉ l.text ∧ EvenRuns quote l.text ∨
    l.kind = .char ∧ QueryLexer.IsEscape l.text

/-- The tokens between the quotes of a string. -/
structure Body (language : Language) (quote : Char) (body : List Lexeme) : Prop where
  /-- Each is content or a character. -/
  parts : ∀ l ∈ body, language.Part quote l
  /-- Content is not followed by content. -/
  apart : body.IsChain fun a b => ¬ (a.kind = .content ∧ b.kind = .content)

/-- What the end of the source leaves in the place of the closing quote. -/
def Ending : Language → List Lexeme → Prop
  | .module, ending => ending = []
  | .query, ending => ending = [] ∨ ending = [⟨.error, ['\\']⟩]

/-- A string with its closing quote. -/
def Closed (language : Language) (group : List Lexeme) : Prop :=
  ∃ quote opening body, language.Opening quote opening ∧ language.Body quote body ∧
    group = opening ++ body ++ [⟨.delimiter, [quote]⟩]

/-- A string without its closing quote. -/
def Unclosed (language : Language) (group : List Lexeme) : Prop :=
  ∃ quote opening body ending, language.Opening quote opening ∧ language.Body quote body ∧
    language.Ending ending ∧ group = opening ++ body ++ ending

/-- Pieces that go on with a string behind its opening, finish it, and go on
behind it. They end with a string that is not closed. -/
def Finishes (language : Language) (quote : Char) (pieces : List (Piece Lexeme)) : Prop :=
  ∃ body ending after, language.Body quote body ∧
    (ending = [⟨.delimiter, [quote]⟩] ∨ language.Ending ending ∧ after = []) ∧
    pieces = (body ++ ending).map .token ++ .endGroup :: after

namespace Body

variable {language : Language} {quote : Char} {body : List Lexeme}

theorem nil : language.Body quote [] := ⟨by simp, .nil⟩

/-- A character may stand before any part. -/
theorem cons_char {l : Lexeme} (h : language.Body quote body) (hkind : l.kind = .char)
    (hl : language.Part quote l) : language.Body quote (l :: body) where
  parts := List.forall_mem_cons.mpr ⟨hl, h.parts⟩
  apart := h.apart.cons fun m _ hm => by rw [hkind] at hm; exact nomatch hm.1

/-- Content may stand before a part that is not content. -/
theorem cons_content {l : Lexeme} (h : language.Body quote body)
    (hbody : ∀ m ∈ body.head?, m.kind ≠ .content) (hl : language.Part quote l) :
    language.Body quote (l :: body) where
  parts := List.forall_mem_cons.mpr ⟨hl, h.parts⟩
  apart := h.apart.cons fun m hm hboth => hbody m hm hboth.2

end Body

end Language

/-! ## Module code -/

namespace ModuleLexer

/-- A string of module code is finished. If the text goes on with a quote, or
ends, then what comes next is not content. -/
theorem finishes_string {state : State} (text : List Char) (hstate : state = .string) :
    ∃ body ending after, Language.module.Body quote body ∧
      (ending = [⟨.delimiter, [quote]⟩] ∨ ending = [] ∧ after = []) ∧
      lexer.eventsFrom state text = (body ++ ending).map .token ++ .endGroup :: after ∧
      ((∀ c, text.head? = some c → c = quote) → ∀ l ∈ body.head?, l.kind ≠ .content) := by
  induction state, text using lossless.induction with
  | nil state =>
    subst hstate
    refine ⟨[], [], [], .nil, .inr ⟨rfl, rfl⟩, ?_, by simp⟩
    rw [Lexer.eventsFrom_nil]
    rfl
  | cons state c cs move hs _ ih =>
    subst hstate
    rw [lexer.eventsFrom_cons hs]
    cases stringRule_of_step hs with
    | content hc =>
      obtain ⟨body, ending, after, hbody, hending, hevents, hhead⟩ := ih rfl
      have hpart : Language.module.Part quote ⟨.content, c :: cs.takeWhile (· != quote)⟩ := by
        refine .inl ⟨rfl, fun hmem => ?_⟩
        rcases List.mem_cons.mp hmem with heq | hmem
        · exact hc heq.symm
        · simpa using List.all_eq_true.mp List.all_takeWhile _ hmem
      have hstop : ∀ d, (cs.drop (cs.takeWhile (· != quote)).length).head? = some d → d = quote :=
        fun d hd => by simpa using not_of_head?_drop_takeWhile hd
      refine ⟨_ :: body, ending, after, hbody.cons_content (hhead hstop) hpart, hending, ?_, ?_⟩
      · exact congrArg (_ :: ·) hevents
      · exact fun hquote => absurd (hquote c rfl) hc
    | doubled hc hd =>
      obtain ⟨body, ending, after, hbody, hending, hevents, -⟩ := ih rfl
      have hpart : Language.module.Part quote ⟨.char, [c, quote]⟩ := .inr ⟨rfl, by rw [hc]⟩
      refine ⟨_ :: body, ending, after, hbody.cons_char rfl hpart, hending, ?_, ?_⟩
      · exact congrArg (_ :: ·) hevents
      · rintro - l hl
        cases hl
        exact nofun
    | closing hc _ =>
      exact ⟨[], _, _, .nil, .inl rfl, by rw [hc]; rfl, by simp⟩

theorem finishes (text : List Char) :
    Language.module.Finishes quote (lexer.eventsFrom .string text) := by
  obtain ⟨body, ending, after, hbody, hending, hevents, -⟩ := finishes_string text rfl
  exact ⟨body, ending, after, hbody, hending, hevents⟩

end ModuleLexer

/-! ## Queries -/

namespace QueryLexer

theorem quote_ne_backslash {quote : Char} (h : isQuote quote = true) : quote ≠ '\\' := by
  rintro rfl
  cases h

/-- What content held back looks like, last character first: there is no
backslash in it, and the quote is doubled. -/
def Held (quote : Char) (held : List Char) : Prop :=
  ∃ text, '\\' ∉ text ∧ held.reverse = double quote text

theorem Held.nil (quote : Char) : Held quote [] := ⟨[], by simp, rfl⟩

/-- More content is held back behind what is held. -/
theorem Held.append {quote : Char} {held : List Char} (h : Held quote held) (text : List Char)
    (htext : '\\' ∉ text) : Held quote ((double quote text).reverse ++ held) := by
  obtain ⟨before, hbefore, heq⟩ := h
  refine ⟨before ++ text, by simp [hbefore, htext], ?_⟩
  rw [List.reverse_append, List.reverse_reverse, heq, double_append]

/-- The content held back, as a token. -/
def heldLexemes (held : List Char) : List Lexeme :=
  if held = [] then [] else [⟨.content, held.reverse⟩]

theorem release_eq (held : List Char) : release held = (heldLexemes held).map .token := by
  unfold release heldLexemes
  split <;> rfl

/-- Content held back is a part of the string, in front of anything that does
not begin with content. -/
theorem Held.body {quote : Char} {held : List Char} (h : Held quote held) {body : List Lexeme}
    (hbody : Language.query.Body quote body) (hhead : ∀ l ∈ body.head?, l.kind ≠ .content) :
    Language.query.Body quote (heldLexemes held ++ body) := by
  obtain ⟨text, htext, heq⟩ := h
  unfold heldLexemes
  split
  · exact hbody
  · refine hbody.cons_content hhead (.inl ⟨rfl, ?_, ?_⟩)
    · rw [heq]
      exact fun hmem => htext (mem_double hmem)
    · rw [heq]
      exact evenRuns_double quote text

theorem not_mem_of_isPlain {quote : Char} (hquote : isQuote quote = true) {text : List Char}
    (h : ∀ c ∈ text, isPlain c = true) : quote ∉ text ∧ '\\' ∉ text := by
  refine ⟨fun hmem => ?_, fun hmem => ?_⟩
  · have hplain := h _ hmem
    simp [isPlain, hquote] at hplain
  · exact absurd (h _ hmem) (by decide)

theorem isEscape_of_escapeTail? {cs more : List Char} (h : escapeTail? cs = some more) :
    IsEscape ('\\' :: more) := by
  have hex (most : Nat) (cs : List Char) : ∀ d ∈ (cs.take most).takeWhile isHexDigit,
      isHexDigit d = true := fun d hd => List.all_eq_true.mp List.all_takeWhile d hd
  have length_le (p : Char → Bool) (most : Nat) (cs : List Char) :
      ((cs.take most).takeWhile p).length ≤ most :=
    (List.takeWhile_prefix p).length_le.trans (List.length_take_le most cs)
  cases cs with
  | nil => cases h
  | cons c cs =>
    simp only [escapeTail?] at h
    split at h
    · next hc => cases h; exact hc.1 ▸ .short hc.2 (hex _ _)
    split at h
    · next hc => cases h; exact hc.1 ▸ .long hc.2 (hex _ _)
    split at h
    · next hc =>
      cases h
      exact hc.1 ▸ .hex ⟨List.length_pos_iff.mpr hc.2, length_le _ _ _⟩ (hex _ _)
    split at h
    · next hc =>
      cases h
      refine .octal ⟨by simp, Nat.succ_le_succ (length_le _ _ _)⟩ fun d hd => ?_
      rcases List.mem_cons.mp hd with rfl | hd
      · exact hc
      · exact List.all_eq_true.mp List.all_takeWhile d hd
    · cases h
      exact .char c

/-- A string of a query is finished. -/
theorem finishes {nameExpected : Bool} {quote : Char} {held : List Char}
    (hquote : isQuote quote = true) (hheld : Held quote held) (text : List Char) :
    Language.query.Finishes quote (lexer.eventsFrom (.string nameExpected quote held) text) := by
  generalize hstate : State.string nameExpected quote held = state
  induction state, text using lossless.induction generalizing held with
  | nil state =>
    subst hstate
    refine ⟨heldLexemes held ++ [], [], [], hheld.body .nil (by simp), .inr ⟨.inl rfl, rfl⟩, ?_⟩
    rw [Lexer.eventsFrom_nil, List.append_nil, List.append_nil, ← release_eq]
    rfl
  | cons state c cs move hs _ ih =>
    subst hstate
    rw [lexer.eventsFrom_cons hs]
    cases stringRule_of_step hs with
    | plain hc =>
      have hall : ∀ d ∈ c :: cs.takeWhile isPlain, isPlain d = true := fun d hd => by
        rcases List.mem_cons.mp hd with rfl | hd
        · exact hc
        · exact List.all_eq_true.mp List.all_takeWhile d hd
      obtain ⟨hnot, hback⟩ := not_mem_of_isPlain hquote hall
      have hmore := hheld.append _ hback
      rw [double_of_not_mem hnot, List.reverse_cons, List.append_assoc] at hmore
      exact ih hmore rfl
    | doubled hc _ _ =>
      have hmore := hheld.append [quote] (by simpa using (quote_ne_backslash hquote).symm)
      rw [double_singleton_self] at hmore
      exact ih (hc ▸ hmore) rfl
    | foreign hc hne =>
      have hmore := hheld.append [c] (by simpa using (quote_ne_backslash hc).symm)
      rw [double_of_not_mem (by simpa using hne.symm)] at hmore
      exact ih hmore rfl
    | closing hc _ _ =>
      refine ⟨heldLexemes held ++ [], _, lexer.eventsFrom (.code nameExpected) cs,
        hheld.body .nil (by simp), .inl rfl, ?_⟩
      rw [release_eq, hc]
      simp
    | escape hc _ h =>
      obtain ⟨body, ending, after, hbody, hending, hevents⟩ := ih (.nil quote) rfl
      have hchar := hbody.cons_char (l := ⟨.char, c :: _⟩) rfl
        (.inr ⟨rfl, hc ▸ isEscape_of_escapeTail? h⟩)
      refine ⟨_, ending, after, hheld.body hchar (by simp), hending, ?_⟩
      dsimp only
      rw [hevents, release_eq]
      simp
    | broken hc _ hend =>
      refine ⟨heldLexemes held ++ [], [⟨.error, ['\\']⟩], [], hheld.body .nil (by simp),
        .inr ⟨.inr rfl, rfl⟩, ?_⟩
      have hnothing : lexer.eventsFrom (.code nameExpected) [] = [] := by
        rw [Lexer.eventsFrom_nil]
        rfl
      dsimp only
      rw [hend, List.drop_nil, hnothing, release_eq, hc]
      simp

end QueryLexer

/-! ## Every group -/

/-- A move that begins a group: it writes the opening of a string, and what
is read from there on finishes the string. -/
def Language.Opens (language : Language) (move : Move language.State) : Prop :=
  ∃ quote opening, language.Opening quote opening ∧
    move.writes = .beginGroup :: opening.map .token ∧
    ∀ text, language.Finishes quote (language.lexer.eventsFrom move.next text)

theorem ModuleLexer.opens_of_step {state : State} {c : Char} {cs : List Char} {move : Move State}
    (hs : lexer.step state c cs = some move) (hbegin : .beginGroup ∈ move.writes) :
    Language.module.Opens move := by
  cases state with
  | code nameFollows =>
    cases codeRule_of_step hs with
    | opening hc => exact ⟨c, [⟨.delimiter, [c]⟩], ⟨hc, rfl⟩, rfl, fun text => hc ▸ finishes text⟩
    | _ => cases List.mem_singleton.mp hbegin
  | string =>
    cases stringRule_of_step hs with
    | closing => simp at hbegin
    | _ => cases List.mem_singleton.mp hbegin

namespace QueryLexer

/-- What stands before the first quote of a string is a modifier. -/
theorem isModifier_of_stringOpening? {c quote : Char} {cs modifier : List Char}
    (h : stringOpening? c cs = some (modifier, quote)) (hne : modifier ≠ []) :
    IsModifier modifier := by
  unfold stringOpening? at h
  split at h
  · cases h
    exact absurd rfl hne
  split at h
  · next hc =>
    obtain ⟨_, -, heq⟩ := Option.map_eq_some_iff.mp h
    cases heq
    exact .inl ⟨c, List.contains_iff_mem.mp hc, rfl⟩
  split at h
  · next hc =>
    simp only [] at h
    split at h
    · cases h
    · next hname =>
      obtain ⟨_, -, heq⟩ := Option.map_eq_some_iff.mp h
      cases heq
      refine .inr ⟨cs.takeWhile isAsciiWordChar, by simpa using hname, ?_, hc ▸ rfl⟩
      exact fun d hd => List.all_eq_true.mp List.all_takeWhile d hd
  · cases h

theorem opens_of_step {state : State} {c : Char} {cs : List Char} {move : Move State}
    (hs : lexer.step state c cs = some move) (hbegin : .beginGroup ∈ move.writes) :
    Language.query.Opens move := by
  cases state with
  | code nameExpected =>
    cases codeRule_of_step hs with
    | @opening modifier quote h =>
      obtain ⟨-, hquote⟩ := stringOpening?_isPrefix h
      have hfinishes (text : List Char) : Language.query.Finishes quote
          (lexer.eventsFrom (.string nameExpected quote []) text) := finishes hquote (.nil quote) text
      by_cases hmodifier : modifier = []
      · subst hmodifier
        exact ⟨quote, _, ⟨hquote, .inl rfl⟩, rfl, hfinishes⟩
      · refine ⟨quote, _, ⟨hquote, .inr ⟨modifier, isModifier_of_stringOpening? h hmodifier, rfl⟩⟩,
          ?_, hfinishes⟩
        simp [openingMove, hmodifier]
    | _ => cases List.mem_singleton.mp hbegin
  | string nameExpected quote held =>
    cases stringRule_of_step hs with
    | closing | escape | broken => simp [release_eq] at hbegin
    | _ => cases hbegin

end QueryLexer

namespace Language

theorem opens_of_step : {language : Language} → {state : language.State} → {c : Char} →
    {cs : List Char} → {move : Move language.State} →
    language.lexer.step state c cs = some move → .beginGroup ∈ move.writes → language.Opens move
  | .module => ModuleLexer.opens_of_step
  | .query => QueryLexer.opens_of_step

theorem not_beginGroup_mem_flush : (language : Language) → (state : language.State) →
    .beginGroup ∉ language.lexer.flush state
  | .module, _ => List.not_mem_nil
  | .query, .code _ => List.not_mem_nil
  | .query, .string _ _ held => by
    show .beginGroup ∉ QueryLexer.release held
    simp [QueryLexer.release_eq]

theorem not_beginGroup_mem_closing (m : Mode) : .beginGroup ∉ (m.closing : List (Piece Lexeme)) := by
  cases m <;> simp [Mode.closing]

/-- Every group of a source is a string. -/
theorem groups_events {language : Language} {source : List Char} {before rest : List (Piece Lexeme)}
    (he : language.events source = before ++ .beginGroup :: rest) :
    ∃ group after, rest = group.map .token ++ .endGroup :: after ∧
      (language.Closed group ∨ language.Unclosed group ∧ after = []) := by
  cases language.lossless.writes he with
  | @move _ first last _ _ _ move _ hs hw _ ha =>
    obtain ⟨quote, opening, hopening, hwrites, hfinishes⟩ :=
      opens_of_step hs (by rw [hw]; simp : .beginGroup ∈ move.writes)
    -- the marker that was found is the only one among what the move writes
    have hlast : last = opening.map .token := by
      rw [hwrites] at hw
      cases first with
      | nil => exact (List.tail_eq_of_cons_eq hw).symm
      | cons p first =>
        have hmem : .beginGroup ∈ opening.map Piece.token := by
          rw [List.tail_eq_of_cons_eq hw]; simp
        simp at hmem
    obtain ⟨body, ending, after, hbody, hending, hevents⟩ := hfinishes _
    refine ⟨opening ++ body ++ ending, after, ?_, ?_⟩
    · rw [ha, hlast, hevents]
      simp
    · rcases hending with rfl | ⟨hending, rfl⟩
      · exact .inl ⟨quote, opening, body, hopening, hbody, rfl⟩
      · exact .inr ⟨⟨quote, opening, body, ending, hopening, hbody, hending, rfl⟩, rfl⟩
  | @finish _ first state _ hw =>
    have hmem : .beginGroup ∈ language.lexer.flush state ++ (language.lexer.mode state).closing := by
      rw [hw]; simp
    rcases List.mem_append.mp hmem with hmem | hmem
    · exact absurd hmem (language.not_beginGroup_mem_flush state)
    · exact absurd hmem (not_beginGroup_mem_closing _)

end Language

/-- The groups of a source of at most 2³² − 2 characters are strings. Each
marker that begins a group is followed by tokens only, up to the marker that
ends it. These are the opening of a string, the parts between its quotes and
the quote that closes it; or the source ends without that quote, and then
nothing comes after the group, so that its last token ends the source. -/
theorem tokenize_groups (language : Language) (source : List Char)
    (hsize : source.length ≤ sourceBound) :
    ∃ stream, tokenize language source = .ok (.ok stream) ∧ textOf stream.bare = source ∧
      ∀ before rest, stream.bare = before ++ .beginGroup :: rest →
        ∃ group after, rest = group.map .token ++ .endGroup :: after ∧
          (language.Closed group ∨ language.Unclosed group ∧ after = []) := by
  refine ⟨_, tokenize_eq hsize, ?_, fun before rest h => ?_⟩
  · rw [language.bare_stream, language.textOf_events]
  · rw [language.bare_stream] at h
    exact Language.groups_events h

/-- A query whose string has a modifier, a doubled quote and an escape, and
is not closed. -/
theorem tokenize_groups_unclosed :
    ∃ stream, tokenize .query ['x', '\x27', 'a', '\x27', '\x27', '\\', 'n'] = .ok (.ok stream) ∧
      ∃ group after, stream.bare = .beginGroup :: group.map .token ++ .endGroup :: after ∧
        (Language.query.Closed group ∨ Language.query.Unclosed group ∧ after = []) := by
  obtain ⟨stream, hstream, -, hgroups⟩ :=
    tokenize_groups .query ['x', '\x27', 'a', '\x27', '\x27', '\\', 'n'] (by decide)
  cases hstream.symm.trans (tokenize_eq (by decide))
  have hbare : (Language.stream .query ['x', '\x27', 'a', '\x27', '\x27', '\\', 'n']).bare =
      [] ++ .beginGroup :: [.token ⟨.modifier, ['x']⟩, .token ⟨.delimiter, ['\x27']⟩,
        .token ⟨.content, ['a', '\x27', '\x27']⟩, .token ⟨.char, ['\\', 'n']⟩, .endGroup] := by
    decide +kernel
  obtain ⟨group, after, hrest, hform⟩ := hgroups _ _ hbare
  exact ⟨_, hstream, group, after, by rw [hbare, hrest]; rfl, hform⟩

end Highlight1C
