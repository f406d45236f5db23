import Highlight1C.Proofs.Cutting
import Highlight1C.Proofs.Scan

/-!
# Where the pieces of a scan come from

What a stream says besides places is its bare pieces; those of a source are
what its lexer writes (`Language.bare_stream`), and its tokens are the lexemes
among them (`Language.lexemes_stream`). Each of them is written by one move of
the lexer, from a state that its run comes to, or at the end of the
text (`Lexer.Lossless.writes`). So a fact about all tokens of a kind is a fact
about the rules that write that kind.
-/

namespace Highlight1C

/-! ## Bare pieces -/

/-- A piece without its place. -/
def Piece.bare : Piece Token → Piece Lexeme
  | .token t => .token t.toLexeme
  | .beginGroup => .beginGroup
  | .endGroup => .endGroup

/-- The pieces of a stream without their places: the kinds and the texts of
its tokens, and the markers between them. -/
def TokenStream.bare (s : TokenStream) : List (Piece Lexeme) :=
  s.pieces.map Piece.bare

/-- Pieces are not changed when they are put into their places. -/
theorem map_bare_placeFrom (behind : List Char) (ps : List (Piece Lexeme)) :
    (placeFrom behind ps).map Piece.bare = ps := by
  induction ps generalizing behind with
  | nil => rfl
  | cons p ps ih => cases p <;> simp [placeFrom, ih, Piece.bare, Lexeme.placed]

theorem Language.bare_stream (language : Language) (source : List Char) :
    (language.stream source).bare = language.events source :=
  map_bare_placeFrom [] _

theorem textOf_tokens (ls : List Lexeme) :
    textOf (ls.map Piece.token) = ls.flatMap (·.text) := by
  induction ls with
  | nil => rfl
  | cons l ls ih => rw [List.map_cons, textOf_token, ih, List.flatMap_cons]

/-! ## Tokens among pieces -/

/-- The tokens of a stream without their places. -/
def TokenStream.lexemes (s : TokenStream) : List Lexeme :=
  s.tokens.map (·.toLexeme)

/-- The lexemes among pieces. -/
def lexemesOf (pieces : List (Piece Lexeme)) : List Lexeme :=
  pieces.filterMap Piece.token?

theorem lexemesOf_append (a b : List (Piece Lexeme)) :
    lexemesOf (a ++ b) = lexemesOf a ++ lexemesOf b :=
  List.filterMap_append

@[simp] theorem lexemesOf_token (l : Lexeme) (ps : List (Piece Lexeme)) :
    lexemesOf (.token l :: ps) = l :: lexemesOf ps := rfl

theorem textOf_eq (ps : List (Piece Lexeme)) : textOf ps = (lexemesOf ps).flatMap (·.text) := by
  induction ps with
  | nil => rfl
  | cons p ps ih =>
    cases p with
    | token l => rw [textOf_token, ih, lexemesOf_token, List.flatMap_cons]
    | beginGroup => exact ih
    | endGroup => exact ih

/-- Lexemes are not changed when they are put into their places. -/
theorem lexemes_placeFrom (behind : List Char) (ps : List (Piece Lexeme)) :
    TokenStream.lexemes ⟨placeFrom behind ps⟩ = lexemesOf ps := by
  unfold TokenStream.lexemes
  induction ps generalizing behind with
  | nil => rfl
  | cons p ps ih =>
    cases p with
    | token l =>
      rw [placeFrom, TokenStream.tokens_token, List.map_cons, ih, lexemesOf_token]
      rfl
    | beginGroup => exact ih behind
    | endGroup => exact ih behind

theorem Language.lexemes_stream (language : Language) (source : List Char) :
    (language.stream source).lexemes = lexemesOf (language.events source) :=
  lexemes_placeFrom [] _

/-- A lexeme among pieces is one of them, between the pieces of the lexemes
before it and of those behind it. -/
theorem lexemesOf_eq_split {ps : List (Piece Lexeme)} {before after : List Lexeme} {l : Lexeme}
    (h : lexemesOf ps = before ++ l :: after) :
    ∃ front back, ps = front ++ .token l :: back ∧ lexemesOf front = before ∧
      lexemesOf back = after := by
  obtain ⟨front, rest, rfl, hfront, hrest⟩ := List.filterMap_eq_append_iff.mp h
  obtain ⟨markers, p, back, rfl, hmarkers, hp, hback⟩ := List.filterMap_eq_cons_iff.mp hrest
  have htoken : p = .token l := by
    cases p with
    | token l' => exact congrArg Piece.token (Option.some.inj hp)
    | beginGroup => cases hp
    | endGroup => cases hp
  have hnone : lexemesOf markers = [] := List.filterMap_eq_nil_iff.mpr hmarkers
  refine ⟨front ++ markers, back, by rw [htoken, List.append_assoc], ?_, hback⟩
  rw [lexemesOf_append, hnone, List.append_nil]
  exact hfront

/-- A token of a source is what its lexer has written. -/
theorem Language.mem_events_of_mem_stream {language : Language} {source : List Char} {t : Token}
    (h : t ∈ (language.stream source).tokens) : .token t.toLexeme ∈ language.events source := by
  have hlexeme : t.toLexeme ∈ (language.stream source).lexemes := List.mem_map_of_mem h
  rw [lexemes_stream] at hlexeme
  obtain ⟨before, after, hsplit⟩ := List.append_of_mem hlexeme
  obtain ⟨front, back, hevents, -, -⟩ := lexemesOf_eq_split hsplit
  rw [hevents]
  exact List.mem_append_right _ List.mem_cons_self

/-! ## Moves that write a piece -/

namespace Lexer

variable {σ : Type}

/-- How the run of a lexer on a source comes to write a piece, behind the
pieces `before` and in front of the pieces `after`. -/
inductive Writes (lx : Lexer σ) (source : List Char) (before : List (Piece Lexeme))
    (p : Piece Lexeme) (after : List (Piece Lexeme)) : Prop where
  /-- A move writes it, among other pieces. -/
  | move {written first last : List (Piece Lexeme)} {state : σ} {c : Char} {cs : List Char}
    {move : Move σ} (reaches : lx.Reaches source written state (c :: cs))
    (step : lx.step state c cs = some move) (writes : move.writes = first ++ p :: last)
    (before_eq : before = written ++ first)
    (after_eq : after = last ++ lx.eventsFrom move.next (cs.drop move.further))
  /-- It is written at the end of the source. -/
  | finish {written first : List (Piece Lexeme)} {state : σ}
    (reaches : lx.Reaches source written state [])
    (writes : lx.flush state ++ (lx.mode state).closing = first ++ p :: after)
    (before_eq : before = written ++ first)

namespace Lossless

variable {lx : Lexer σ} {held : σ → List Char}

/-- What is written from a state on that a run comes to, is written by that
run. -/
theorem writes_of_reaches (h : lx.Lossless held) {source : List Char} {p : Piece Lexeme}
    {after : List (Piece Lexeme)} {state : σ} {rest : List Char} :
    ∀ {written before}, lx.Reaches source written state rest →
      lx.eventsFrom state rest = before ++ p :: after →
      lx.Writes source (written ++ before) p after := by
  induction state, rest using h.induction with
  | nil state =>
    intro written before hr he
    rw [eventsFrom_nil] at he
    exact .finish hr he rfl
  | cons state c cs move hs _ ih =>
    intro written before hr he
    rw [lx.eventsFrom_cons hs] at he
    rcases append_eq_split he with ⟨between, rfl, hrest⟩ | ⟨last, hwrites⟩
    · rw [← List.append_assoc]
      exact ih (hr.move hs) hrest
    · rw [hwrites, List.append_assoc, List.cons_append] at he
      obtain ⟨-, hafter⟩ := List.cons.inj (List.append_cancel_left he)
      exact .move hr hs hwrites rfl hafter.symm

/-- Every piece is written by a move, or at the end. -/
theorem writes (h : lx.Lossless held) {source : List Char} {before after : List (Piece Lexeme)}
    {p : Piece Lexeme} (he : lx.eventsFrom lx.start source = before ++ p :: after) :
    lx.Writes source before p after :=
  h.writes_of_reaches .start he

end Lossless

end Lexer

/-! ## Tokens of module code -/

namespace ModuleLexer

theorem lexemesOf_writes {state : State} {c : Char} {cs : List Char} {move : Move State}
    (hs : lexer.step state c cs = some move) : ∃ l, lexemesOf move.writes = [l] := by
  cases state with
  | code nameFollows =>
    cases codeRule_of_step hs <;> exact ⟨_, rfl⟩
  | string =>
    cases stringRule_of_step hs <;> exact ⟨_, rfl⟩

/-- How the run on a source comes to write the token `l`, behind the pieces
`before` and in front of the pieces `after`: it is the only token of a move. -/
structure WritesToken (source : List Char) (before : List (Piece Lexeme)) (l : Lexeme)
    (after : List (Piece Lexeme)) (state : State) (c : Char) (cs : List Char) (move : Move State) :
    Prop where
  step : lexer.step state c cs = some move
  writes : lexemesOf move.writes = [l]
  before : ∃ written, lexer.Reaches source written state (c :: cs) ∧
    lexemesOf before = lexemesOf written
  after : textOf after = cs.drop move.further

theorem writesToken {source : List Char} {before after : List (Piece Lexeme)} {l : Lexeme}
    (he : Language.module.events source = before ++ .token l :: after) :
    ∃ state c cs move, WritesToken source before l after state c cs move := by
  cases lossless.writes he with
  | @move written first last state c cs move hr hs hwrites hbefore hafter =>
    obtain ⟨l', hone⟩ := lexemesOf_writes hs
    have hsplit := hone
    rw [hwrites, lexemesOf_append, lexemesOf_token] at hsplit
    rcases List.append_eq_singleton_iff.mp hsplit with ⟨hfirst, heq⟩ | ⟨-, heq⟩
    · obtain ⟨rfl, hlast⟩ := List.cons.inj heq
      refine ⟨state, c, cs, move, hs, hone, ⟨written, hr, ?_⟩, ?_⟩
      · rw [hbefore, lexemesOf_append, hfirst, List.append_nil]
      · rw [hafter, textOf_append, textOf_eq, hlast, lossless.textOf_eventsFrom]
        rfl
    · cases heq
  | @finish _ _ state _ hwrites =>
    have hmem : .token l ∈ lexer.flush state ++ (lexer.mode state).closing := by
      rw [hwrites]
      simp
    exact absurd hmem (Mode.not_token_mem_closing _ _)

end ModuleLexer

end Highlight1C
