import Highlight1C.Lexer.Basic

/-!
# Lexers that lose nothing

What a lexer writes about a text, with the group closed that the end of the
text leaves open, are its events (`Lexer.eventsFrom`). A lexer may hold
characters back and write them later; `held` says which. `Lexer.Lossless`
states what each move owes: it takes characters that are there, what it
writes and holds back is what it held and took, it writes no empty token,
and it keeps the groups nested. From this follows, for every text and every
state:

* `Lossless.rest_runFrom`: the lexer never stops before the end;
* `Lossless.textOf_eventsFrom`: the texts of the events make up the text;
* `Lossless.full_eventsFrom`: no token is empty;
* `Lossless.nested_eventsFrom`: the groups are well nested and closed;
* `Lossless.of_reaches`: at each head of the loop, what is written and held
  back is what has been read, and the events still to come are those of
  reading on from there;
* `Lossless.mode_of_reaches`: the markers written by then say whether that is
  within a string;
* `Lossless.exists_reaches_nil`: the run comes to the end of the text.
-/

namespace Highlight1C

/-! ## Pieces -/

/-- The text of a piece; a marker has none. -/
def Piece.text : Piece Lexeme → List Char
  | .token l => l.text
  | .beginGroup | .endGroup => []

/-- The texts of pieces, one after the other. -/
def textOf (pieces : List (Piece Lexeme)) : List Char :=
  pieces.flatMap Piece.text

@[simp] theorem textOf_nil : textOf [] = [] := rfl

@[simp] theorem textOf_token (l : Lexeme) (ps : List (Piece Lexeme)) :
    textOf (.token l :: ps) = l.text ++ textOf ps := rfl

@[simp] theorem textOf_beginGroup (ps : List (Piece Lexeme)) :
    textOf (.beginGroup :: ps) = textOf ps := rfl

@[simp] theorem textOf_endGroup (ps : List (Piece Lexeme)) :
    textOf (.endGroup :: ps) = textOf ps := rfl

@[simp] theorem textOf_append (a b : List (Piece Lexeme)) :
    textOf (a ++ b) = textOf a ++ textOf b := by
  simp [textOf]

namespace Mode

/-- The marker that closes the group of a string left open. -/
def closing {τ : Type} : Mode → List (Piece τ)
  | .initial => []
  | .inString => [.endGroup]

/-- The mode after a piece; there is none when a group is opened within a
group or closed outside, or when a part of a string stands outside. -/
def after? (m : Mode) : Piece Lexeme → Option Mode
  | .beginGroup => if m = .initial then some .inString else none
  | .endGroup => if m = .inString then some .initial else none
  | .token l => if l.kind.isStringPart ∧ m = .initial then none else some m

/-- The mode after pieces, one after the other. -/
def afterAll? (m : Mode) (pieces : List (Piece Lexeme)) : Option Mode :=
  pieces.foldlM after? m

@[simp] theorem afterAll?_nil (m : Mode) : m.afterAll? [] = some m := rfl

theorem afterAll?_cons (m : Mode) (p : Piece Lexeme) (ps : List (Piece Lexeme)) :
    m.afterAll? (p :: ps) = (m.after? p).bind (·.afterAll? ps) := rfl

theorem afterAll?_append (m : Mode) (a b : List (Piece Lexeme)) :
    m.afterAll? (a ++ b) = (m.afterAll? a).bind (·.afterAll? b) := by
  simp only [afterAll?, List.foldlM_append]
  rfl

theorem textOf_closing (m : Mode) : textOf m.closing = [] := by
  cases m <;> rfl

theorem not_token_mem_closing (m : Mode) (l : Lexeme) : .token l ∉ m.closing := by
  cases m <;> simp [closing]

theorem afterAll?_closing (m : Mode) : m.afterAll? m.closing = some .initial := by
  cases m <;> rfl

end Mode

namespace Lexer

variable {σ : Type}

/-! ## Events -/

/-- What was written before changes nothing else of a run. -/
theorem runFrom_written (lx : Lexer σ) (written : List (Piece Lexeme)) (state : σ)
    (text : List Char) :
    (lx.runFrom written state text).state = (lx.runFrom [] state text).state ∧
      (lx.runFrom written state text).rest = (lx.runFrom [] state text).rest := by
  induction h : text.length using Nat.strongRecOn generalizing written state text with
  | _ n ih =>
    cases text with
    | nil => simp [runFrom_nil]
    | cons c cs =>
      rw [runFrom, runFrom]
      cases hs : lx.step state c cs with
      | none => simp
      | some move =>
        have hlt : (cs.drop move.further).length < n := by
          rw [← h, List.length_drop, List.length_cons]
          omega
        simp only []
        obtain ⟨h₁, h₂⟩ := ih _ hlt (move.writes.reverse ++ written) move.next _ rfl
        obtain ⟨h₃, h₄⟩ := ih _ hlt (move.writes.reverse ++ []) move.next _ rfl
        exact ⟨h₁.trans h₃.symm, h₂.trans h₄.symm⟩

/-- All that is written about a text that is read from a state on, and the
marker that closes the string that the end of the text leaves open. -/
def eventsFrom (lx : Lexer σ) (state : σ) (text : List Char) : List (Piece Lexeme) :=
  (lx.runFrom [] state text).pieces ++ (lx.mode (lx.runFrom [] state text).state).closing

theorem eventsFrom_nil (lx : Lexer σ) (state : σ) :
    lx.eventsFrom state [] = lx.flush state ++ (lx.mode state).closing := by
  simp [eventsFrom, runFrom_nil]

/-- A move writes, and the rest is read from the next state on. -/
theorem eventsFrom_cons (lx : Lexer σ) {state : σ} {c : Char} {cs : List Char} {move : Move σ}
    (h : lx.step state c cs = some move) :
    lx.eventsFrom state (c :: cs) =
      move.writes ++ lx.eventsFrom move.next (cs.drop move.further) := by
  have hw := lx.runFrom_written (move.writes.reverse ++ []) move.next (cs.drop move.further)
  simp only [eventsFrom, lx.runFrom_cons_of_some [] h]
  rw [pieces_runFrom, hw.1]
  simp

/-! ## What a lexer owes -/

/-- What a move owes, when the lexer holds back `held`. -/
structure Keeps (lx : Lexer σ) (held : σ → List Char) (state : σ) (c : Char) (cs : List Char)
    (move : Move σ) : Prop where
  /-- It takes characters that are there. -/
  within : move.further ≤ cs.length
  /-- What it writes and holds back is what was held back and what it takes. -/
  text : textOf move.writes ++ held move.next = held state ++ c :: cs.take move.further
  /-- It writes no empty token. -/
  full : ∀ l, .token l ∈ move.writes → l.text ≠ []
  /-- It keeps the groups nested, and its mode says whether one is open. -/
  nested : (lx.mode state).afterAll? move.writes = some (lx.mode move.next)

/-- With what is left behind a move, this is all that was to come. -/
theorem Keeps.text_drop {lx : Lexer σ} {held : σ → List Char} {state : σ} {c : Char}
    {cs : List Char} {move : Move σ} (h : lx.Keeps held state c cs move) :
    textOf move.writes ++ (held move.next ++ cs.drop move.further) = held state ++ c :: cs := by
  rw [← List.append_assoc, h.text, List.append_assoc, List.cons_append, List.take_append_drop]

/-- A move that writes one token keeps what it owes, if the token is made of
what comes next, nothing is held back, and the token may stand there. -/
theorem Keeps.token {lx : Lexer σ} {held : σ → List Char} {state next : σ} {c : Char}
    {cs more : List Char} {kind : TokenKind} (hmore : more <+: cs) (hheld : held state = [])
    (hnext : held next = []) (hmode : lx.mode next = lx.mode state)
    (hkind : lx.mode state = .inString ∨ kind.isStringPart = false) :
    lx.Keeps held state c cs (.token kind c more next) where
  within := hmore.length_le
  text := by
    have htake := List.prefix_iff_eq_take.mp hmore
    simp [Move.token, hheld, hnext, ← htake]
  full := by simp [Move.token]
  nested := by
    rcases hkind with hk | hk <;>
      simp [Move.token, Mode.afterAll?_cons, Mode.after?, hk, hmode]

/-- What a lexer owes that holds back `held`. -/
structure Lossless (lx : Lexer σ) (held : σ → List Char) : Prop where
  /-- Nothing is held back at the start, -/
  start_held : held lx.start = []
  /-- where no group is open. -/
  start_mode : lx.mode lx.start = .initial
  /-- In every state a rule applies to every character, and its move keeps
  what it owes. -/
  step : ∀ state c cs, ∃ move, lx.step state c cs = some move ∧ lx.Keeps held state c cs move
  /-- At the end, what was held back is written, -/
  flush_text : ∀ state, textOf (lx.flush state) = held state
  /-- not as an empty token, -/
  flush_full : ∀ state l, .token l ∈ lx.flush state → l.text ≠ []
  /-- and without a marker. -/
  flush_nested : ∀ state, (lx.mode state).afterAll? (lx.flush state) = some (lx.mode state)

namespace Lossless

variable {lx : Lexer σ} {held : σ → List Char}

/-- Induction along a run: what holds at the end of a text, and before a move
if it holds after it, holds everywhere. -/
theorem induction (h : lx.Lossless held) {P : σ → List Char → Prop} (nil : ∀ state, P state [])
    (cons : ∀ state c cs move, lx.step state c cs = some move → lx.Keeps held state c cs move →
      P move.next (cs.drop move.further) → P state (c :: cs)) (state : σ) (text : List Char) :
    P state text := by
  induction hn : text.length using Nat.strongRecOn generalizing state text with
  | _ n ih =>
    cases text with
    | nil => exact nil state
    | cons c cs =>
      obtain ⟨move, hs, hk⟩ := h.step state c cs
      refine cons state c cs move hs hk (ih _ ?_ move.next _ rfl)
      rw [← hn, List.length_drop, List.length_cons]
      omega

/-- The lexer never stops before the end. -/
theorem rest_runFrom (h : lx.Lossless held) (state : σ) (text : List Char) :
    (lx.runFrom [] state text).rest = [] := by
  induction state, text using h.induction with
  | nil state => rw [runFrom_nil]
  | cons state c cs move hs _ ih =>
    rw [lx.runFrom_cons_of_some [] hs, (lx.runFrom_written _ _ _).2, ih]

/-- The texts of the events are what was held back and the text. -/
theorem textOf_eventsFrom (h : lx.Lossless held) (state : σ) (text : List Char) :
    textOf (lx.eventsFrom state text) = held state ++ text := by
  induction state, text using h.induction with
  | nil state => rw [eventsFrom_nil, textOf_append, h.flush_text, Mode.textOf_closing]
  | cons state c cs move hs hk ih =>
    rw [lx.eventsFrom_cons hs, textOf_append, ih, hk.text_drop]

/-- No token is empty. -/
theorem full_eventsFrom (h : lx.Lossless held) (state : σ) (text : List Char) :
    ∀ l, .token l ∈ lx.eventsFrom state text → l.text ≠ [] := by
  induction state, text using h.induction with
  | nil state =>
    intro l hl
    rw [eventsFrom_nil, List.mem_append] at hl
    rcases hl with hl | hl
    · exact h.flush_full state l hl
    · exact absurd hl (Mode.not_token_mem_closing _ _)
  | cons state c cs move hs hk ih =>
    intro l hl
    rw [lx.eventsFrom_cons hs, List.mem_append] at hl
    exact hl.elim (hk.full l) (ih l)

/-- The groups are well nested, and closed at the end. -/
theorem nested_eventsFrom (h : lx.Lossless held) (state : σ) (text : List Char) :
    (lx.mode state).afterAll? (lx.eventsFrom state text) = some .initial := by
  induction state, text using h.induction with
  | nil state =>
    rw [eventsFrom_nil, Mode.afterAll?_append, h.flush_nested]
    exact Mode.afterAll?_closing _
  | cons state c cs move hs hk ih =>
    rw [lx.eventsFrom_cons hs, Mode.afterAll?_append, hk.nested]
    exact ih

/-- At a head of the loop, the source is what has been written or is held
back, and the rest; and the events are those written, and those of the rest. -/
theorem of_reaches (h : lx.Lossless held) {source rest : List Char}
    {written : List (Piece Lexeme)} {state : σ} (hr : lx.Reaches source written state rest) :
    source = textOf written ++ held state ++ rest ∧
      lx.eventsFrom lx.start source = written ++ lx.eventsFrom state rest := by
  induction hr with
  | start => simp [h.start_held]
  | @move written state c cs move _ hs ih =>
    obtain ⟨_, hs', hk⟩ := h.step state c cs
    cases hs.symm.trans hs'
    obtain ⟨ht, he⟩ := ih
    rw [lx.eventsFrom_cons hs] at he
    refine ⟨?_, by rw [he, List.append_assoc]⟩
    rw [ht, textOf_append, List.append_assoc _ (textOf move.writes), hk.text]
    simp

/-- At a head of the loop, the markers that have been written say whether the
state is within a string. -/
theorem mode_of_reaches (h : lx.Lossless held) {source rest : List Char}
    {written : List (Piece Lexeme)} {state : σ} (hr : lx.Reaches source written state rest) :
    Mode.initial.afterAll? written = some (lx.mode state) := by
  induction hr with
  | start => rw [Mode.afterAll?_nil, h.start_mode]
  | @move written state c cs move _ hs ih =>
    obtain ⟨_, hs', hk⟩ := h.step state c cs
    cases hs.symm.trans hs'
    rw [Mode.afterAll?_append, ih]
    exact hk.nested

/-- A run comes to the end of the text, from every state that it comes to. -/
theorem exists_reaches_nil (h : lx.Lossless held) {source : List Char} {state : σ}
    {rest : List Char} :
    ∀ {written}, lx.Reaches source written state rest →
      ∃ written', lx.Reaches source written' (lx.runFrom [] state rest).state [] := by
  induction state, rest using h.induction with
  | nil state =>
    intro written hr
    rw [runFrom_nil]
    exact ⟨written, hr⟩
  | cons state c cs move hs _ ih =>
    intro written hr
    rw [lx.runFrom_cons_of_some [] hs, (lx.runFrom_written _ _ _).1]
    exact ih (hr.move hs)

end Lossless

end Lexer

end Highlight1C
