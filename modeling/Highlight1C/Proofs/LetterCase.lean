import Highlight1C.Proofs.Scan
import Highlight1C.Proofs.Text

/-!
# Texts that differ in case

`Text.small` writes a text with small letters, those of the English and the
Russian alphabet; two texts differ in case only if that makes them the same
(`Text.SameButCase`). No class of characters tells a letter from its small
letter (`smallLetter_invariant`), and neither does the kind of a word
(`Lexicon.classify_small`), since words are looked up in lower case.

A lexer is blind to a change `f` of characters if its moves on a changed text
are its moves on the text with what they write changed (`Lexer.BlindTo`). Then
so are its events (`BlindTo.eventsFrom_map`), and as small letters take as many
bytes as capital ones, nothing moves from its place (`outline_placeFrom`).
-/

namespace Highlight1C

/-! ## Small letters -/

namespace Text

/-- The small letter for a capital letter of the English or the Russian
alphabet; any other character is left as it is. -/
def smallLetter (c : Char) : Char :=
  if ('A' ≤ c ∧ c ≤ 'Z') ∨ ('А' ≤ c ∧ c ≤ 'Я') then Char.ofNat (c.toNat + 0x20)
  else if c = 'Ё' then 'ё'
  else c

/-- A text with small letters for capital ones. -/
def small (text : List Char) : List Char :=
  text.map smallLetter

/-- Two texts are as long as one another, and differ in the case of letters at
most. -/
def SameButCase (a b : List Char) : Prop :=
  small a = small b

/-- The code points of the capital letters. -/
def capitalCodes : List Nat :=
  List.range' 0x41 26 ++ List.range' 0x410 32 ++ [0x401]

theorem smallLetter_eq_self_or (c : Char) : smallLetter c = c ∨ c.toNat ∈ capitalCodes := by
  have between (a b : Char) (hab : a ≤ c ∧ c ≤ b) : a.toNat ≤ c.toNat ∧ c.toNat ≤ b.toNat :=
    ⟨UInt32.le_iff_toNat_le.mp hab.1, UInt32.le_iff_toNat_le.mp hab.2⟩
  unfold smallLetter
  split
  · next h =>
    right
    simp only [capitalCodes, List.mem_append, List.mem_range'_1]
    rcases h with h | h
    · have hcode := between 'A' 'Z' h
      simp at hcode
      omega
    · have hcode := between 'А' 'Я' h
      simp at hcode
      omega
  split
  · next h =>
    right
    subst h
    decide
  · exact .inl rfl

/-- What does not tell a capital letter from its small letter does not tell any
character from its small letter. -/
theorem smallLetter_invariant {α : Type} [DecidableEq α] {p : Char → α}
    (h : (capitalCodes.all fun n =>
      decide (p (smallLetter (Char.ofNat n)) = p (Char.ofNat n))) = true) (c : Char) :
    p (smallLetter c) = p c := by
  rcases smallLetter_eq_self_or c with hself | hcapital
  · rw [hself]
  · have hc := of_decide_eq_true (List.all_eq_true.mp h _ hcapital)
    rwa [Char.ofNat_toNat] at hc

theorem smallLetter_iff {p : Char → Prop} [DecidablePred p]
    (h : (capitalCodes.all fun n =>
      decide (decide (p (smallLetter (Char.ofNat n))) = decide (p (Char.ofNat n)))) = true) (c : Char) :
    p (smallLetter c) ↔ p c :=
  decide_eq_decide.mp (smallLetter_invariant (p := fun c => decide (p c)) h c)

theorem isLetter_smallLetter (c : Char) : isLetter (smallLetter c) = isLetter c :=
  smallLetter_invariant (by decide) c

theorem isSpace_smallLetter (c : Char) : isSpace (smallLetter c) = isSpace c :=
  smallLetter_invariant (by decide) c

theorem isNameStart_smallLetter (c : Char) : isNameStart (smallLetter c) = isNameStart c :=
  smallLetter_invariant (by decide) c

theorem isWordChar_smallLetter (c : Char) : isWordChar (smallLetter c) = isWordChar c :=
  smallLetter_invariant (by decide) c

theorem isDigit_smallLetter (c : Char) : (smallLetter c).isDigit = c.isDigit :=
  smallLetter_invariant (by decide) c

theorem utf8Size_smallLetter (c : Char) : (smallLetter c).utf8Size = c.utf8Size :=
  smallLetter_invariant (by decide) c

theorem isLetter_of_mem_capitalCodes {c : Char} (h : c.toNat ∈ capitalCodes) : isLetter c = true := by
  have hall : ∀ n ∈ capitalCodes, isLetter (Char.ofNat n) = true := by decide
  have hc := hall c.toNat h
  rwa [Char.ofNat_toNat] at hc

/-- A small letter stands for letters only. -/
theorem smallLetter_eq_iff {c d : Char} (hd : isLetter d = false) : smallLetter c = d ↔ c = d := by
  rcases smallLetter_eq_self_or c with hself | hcapital
  · rw [hself]
  · have hc := isLetter_of_mem_capitalCodes hcapital
    refine iff_of_false ?_ ?_
    · rintro rfl
      cases ((isLetter_smallLetter c).trans hc).symm.trans hd
    · rintro rfl
      cases hc.symm.trans hd

theorem smallLetter_of_not_isLetter {c : Char} (h : isLetter c = false) : smallLetter c = c :=
  (smallLetter_eq_iff h).mpr rfl

theorem smallLetter_beq {d : Char} (hd : isLetter d = false) (c : Char) :
    (smallLetter c == d) = (c == d) := by
  rw [Bool.eq_iff_iff, beq_iff_eq, beq_iff_eq]
  exact smallLetter_eq_iff hd

/-! ## Texts in small letters -/

@[simp] theorem small_nil : small [] = [] := rfl

@[simp] theorem small_cons (c : Char) (cs : List Char) :
    small (c :: cs) = smallLetter c :: small cs := rfl

@[simp] theorem small_append (a b : List Char) : small (a ++ b) = small a ++ small b :=
  List.map_append

@[simp] theorem length_small (text : List Char) : (small text).length = text.length :=
  List.length_map _

@[simp] theorem small_eq_nil {text : List Char} : small text = [] ↔ text = [] :=
  List.map_eq_nil_iff

theorem drop_small (n : Nat) (text : List Char) : (small text).drop n = small (text.drop n) :=
  List.map_drop.symm

theorem take_small (n : Nat) (text : List Char) : (small text).take n = small (text.take n) :=
  List.map_take.symm

theorem tail_small (text : List Char) : (small text).tail = small text.tail :=
  List.map_tail.symm

theorem takeWhile_small {p : Char → Bool} (hp : ∀ c, p (smallLetter c) = p c) (text : List Char) :
    (small text).takeWhile p = small (text.takeWhile p) := by
  have hcomp : p ∘ smallLetter = p := funext hp
  rw [small, List.takeWhile_map, hcomp]
  rfl

theorem any_head?_small {p : Char → Bool} (hp : ∀ c, p (smallLetter c) = p c) (text : List Char) :
    (small text).head?.any p = text.head?.any p := by
  cases text with
  | nil => rfl
  | cons c cs => exact hp c

theorem head?_small_eq_some {d : Char} (hd : isLetter d = false) (text : List Char) :
    (small text).head? = some d ↔ text.head? = some d := by
  cases text with
  | nil => exact Iff.rfl
  | cons c cs =>
    rw [small_cons, List.head?_cons, List.head?_cons, Option.some_inj, Option.some_inj]
    exact smallLetter_eq_iff hd

theorem restOfLine_small (text : List Char) : restOfLine (small text) = small (restOfLine text) := by
  refine takeWhile_small (fun c => ?_) text
  exact congrArg Bool.not (smallLetter_beq (by decide) c)

theorem byteLength_small (text : List Char) : byteLength (small text) = byteLength text := by
  induction text with
  | nil => rfl
  | cons c cs ih => rw [small_cons, byteLength_cons, byteLength_cons, ih, utf8Size_smallLetter]

theorem lastLine_small (text : List Char) : lastLine (small text) = small (lastLine text) := by
  have hreverse : (small text).reverse = small text.reverse := List.map_reverse.symm
  have hrun : (small text.reverse).takeWhile (· != '\n') =
      small (text.reverse.takeWhile (· != '\n')) := restOfLine_small _
  unfold lastLine
  rw [hreverse, hrun]
  exact List.map_reverse.symm

theorem count_feed_small (text : List Char) : (small text).count '\n' = text.count '\n' := by
  induction text with
  | nil => rfl
  | cons c cs ih =>
    have hfeed : (smallLetter c == '\n') = (c == '\n') := smallLetter_beq (by decide) c
    rw [small_cons, List.count_cons, List.count_cons, ih, hfeed]

/-! ## Lower case -/

theorem lowerChar_smallLetter (c : Char) : lowerChar (smallLetter c) = lowerChar c :=
  smallLetter_invariant (by decide +kernel) c

theorem meetsCased_small (text : List Char) : meetsCased (small text) = meetsCased text := by
  have hignorable (c : Char) : caseIgnorableRanges.contains (smallLetter c).toNat =
      caseIgnorableRanges.contains c.toNat :=
    smallLetter_invariant (p := fun c => caseIgnorableRanges.contains c.toNat) (by decide) c
  have hcased (c : Char) : casedRanges.contains (smallLetter c).toNat =
      casedRanges.contains c.toNat :=
    smallLetter_invariant (p := fun c => casedRanges.contains c.toNat) (by decide) c
  have hdrop : (small text).dropWhile (fun c => caseIgnorableRanges.contains c.toNat) =
      small (text.dropWhile fun c => caseIgnorableRanges.contains c.toNat) := by
    have hcomp : (fun c => caseIgnorableRanges.contains c.toNat) ∘ smallLetter =
        fun c => caseIgnorableRanges.contains c.toNat := funext hignorable
    rw [small, List.dropWhile_map, hcomp]
    rfl
  unfold meetsCased
  rw [hdrop]
  cases text.dropWhile fun c => caseIgnorableRanges.contains c.toNat with
  | nil => rfl
  | cons c cs => exact hcased c

theorem lowerFrom_small (before done text : List Char) :
    lowerFrom (small before) done (small text) = lowerFrom before done text := by
  induction text generalizing before done with
  | nil => rfl
  | cons c rest ih =>
    have hsigma : smallLetter c = 'Σ' ↔ c = 'Σ' := smallLetter_eq_iff (by decide)
    have hdotted : smallLetter c = 'İ' ↔ c = 'İ' := smallLetter_eq_iff (by decide)
    rw [small_cons, lowerFrom, lowerFrom, ← small_cons]
    simp only [hsigma, hdotted, meetsCased_small, lowerChar_smallLetter]
    exact ih _ _

/-- Small letters have the same lower-case forms. -/
theorem lower_small (text : List Char) : lower (small text) = lower text :=
  lowerFrom_small [] [] text

end Text

theorem Lexicon.classify_small (lexicon : Lexicon) (word : List Char) :
    lexicon.classify (Text.small word) = lexicon.classify word := by
  rw [classify, classify, Text.lower_small]

/-! ## Lexers that are blind to a change of characters -/

/-- A piece with what it carries changed. -/
def Piece.map {τ υ : Type} (f : τ → υ) : Piece τ → Piece υ
  | .token t => .token (f t)
  | .beginGroup => .beginGroup
  | .endGroup => .endGroup

/-- A lexeme with the characters of its text changed. -/
def Lexeme.mapText (f : Char → Char) (l : Lexeme) : Lexeme :=
  ⟨l.kind, l.text.map f⟩

/-- Pieces with the characters of their texts changed. -/
def mapTexts (f : Char → Char) (pieces : List (Piece Lexeme)) : List (Piece Lexeme) :=
  pieces.map (Piece.map (Lexeme.mapText f))

@[simp] theorem mapTexts_nil (f : Char → Char) : mapTexts f [] = [] := rfl

@[simp] theorem mapTexts_token (f : Char → Char) (l : Lexeme) (ps : List (Piece Lexeme)) :
    mapTexts f (.token l :: ps) = .token ⟨l.kind, l.text.map f⟩ :: mapTexts f ps := rfl

@[simp] theorem mapTexts_beginGroup (f : Char → Char) (ps : List (Piece Lexeme)) :
    mapTexts f (.beginGroup :: ps) = .beginGroup :: mapTexts f ps := rfl

@[simp] theorem mapTexts_endGroup (f : Char → Char) (ps : List (Piece Lexeme)) :
    mapTexts f (.endGroup :: ps) = .endGroup :: mapTexts f ps := rfl

@[simp] theorem mapTexts_append (f : Char → Char) (a b : List (Piece Lexeme)) :
    mapTexts f (a ++ b) = mapTexts f a ++ mapTexts f b :=
  List.map_append

theorem mapTexts_closing (f : Char → Char) (m : Mode) : mapTexts f m.closing = m.closing := by
  cases m <;> rfl

/-- A move on a changed text: what it writes is changed, and the characters that
the next state holds. -/
def Move.map {σ : Type} (f : Char → Char) (g : σ → σ) (move : Move σ) : Move σ where
  writes := mapTexts f move.writes
  further := move.further
  next := g move.next

theorem Move.map_token {σ : Type} (f : Char → Char) (g : σ → σ) (kind : TokenKind) (c : Char)
    (more : List Char) (next : σ) :
    (Move.token kind c more next).map f g = .token kind (f c) (more.map f) (g next) := by
  simp [Move.map, Move.token]

namespace Lexer

variable {σ : Type}

/-- What a lexer owes that does not tell the characters of a text from those
that `f` makes of them, as long as its states and what they are to read are
`proper`. A state may hold characters, which `g` changes likewise. -/
structure BlindTo (lx : Lexer σ) (f : Char → Char) (g : σ → σ) (proper : σ → List Char → Prop) :
    Prop where
  /-- Nothing is held at the start. -/
  start : g lx.start = lx.start
  /-- A move on a changed text is the move on the text, changed. -/
  step : ∀ state c cs move, proper state (c :: cs) → lx.step state c cs = some move →
    lx.step (g state) (f c) (cs.map f) = some (move.map f g)
  /-- Behind it, state and text are proper still. -/
  proper_step : ∀ state c cs move, proper state (c :: cs) → lx.step state c cs = some move →
    proper move.next (cs.drop move.further)
  /-- What is written at the end is changed likewise. -/
  flush : ∀ state, lx.flush (g state) = mapTexts f (lx.flush state)
  /-- The mode stays. -/
  mode : ∀ state, lx.mode (g state) = lx.mode state

/-- A changed text has the events of the text, with their texts changed. -/
theorem BlindTo.eventsFrom_map {lx : Lexer σ} {f : Char → Char} {g : σ → σ}
    {proper : σ → List Char → Prop} {held : σ → List Char} (h : lx.BlindTo f g proper)
    (hl : lx.Lossless held) {state : σ} {text : List Char} (hp : proper state text) :
    lx.eventsFrom (g state) (text.map f) = mapTexts f (lx.eventsFrom state text) := by
  induction state, text using hl.induction with
  | nil state =>
    rw [List.map_nil, eventsFrom_nil, eventsFrom_nil, h.flush, h.mode, mapTexts_append,
      mapTexts_closing]
  | cons state c cs move hs _ ih =>
    have hrest := ih (h.proper_step _ _ _ _ hp hs)
    have hstep := h.step _ _ _ _ hp hs
    rw [List.map_cons, lx.eventsFrom_cons hs, lx.eventsFrom_cons hstep, mapTexts_append, ← hrest,
      List.map_drop]
    rfl

end Lexer

/-! ## Places -/

namespace Position

theorem after_small (text : List Char) : after (Text.small text) = after text := by
  unfold after
  rw [Text.byteLength_small, Text.count_feed_small, Text.lastLine_small, Text.length_small]

end Position

/-- The kind and the place of a token. -/
def Token.outline (t : Token) : TokenKind × Span :=
  (t.kind, t.span)

/-- What a stream says besides texts: the kinds and the places of its tokens,
and the markers between them. -/
def TokenStream.outline (s : TokenStream) : List (Piece (TokenKind × Span)) :=
  s.pieces.map (Piece.map Token.outline)

/-- With small letters, a lexeme has the same place. -/
theorem Lexeme.outline_placed (behind : List Char) (l : Lexeme) :
    ((l.mapText Text.smallLetter).placed (Text.small behind)).outline =
      (l.placed behind).outline := by
  have hstart := Position.after_small behind
  have hstop := Position.after_small (behind ++ l.text)
  rw [Text.small_append] at hstop
  show (l.kind, (⟨_, .after (Text.small behind ++ Text.small l.text)⟩ : Span)) = _
  rw [hstart, hstop]
  rfl

/-- With small letters, pieces have the same places. -/
theorem outline_placeFrom (behind : List Char) (ps : List (Piece Lexeme)) :
    TokenStream.outline ⟨placeFrom (Text.small behind) (mapTexts Text.smallLetter ps)⟩ =
      TokenStream.outline ⟨placeFrom behind ps⟩ := by
  induction ps generalizing behind with
  | nil => rfl
  | cons p ps ih =>
    cases p with
    | token l =>
      have hrest := ih (behind ++ l.text)
      rw [Text.small_append] at hrest
      exact List.cons_eq_cons.mpr ⟨congrArg Piece.token (l.outline_placed behind), hrest⟩
    | beginGroup => exact congrArg (_ :: ·) (ih behind)
    | endGroup => exact congrArg (_ :: ·) (ih behind)

end Highlight1C
