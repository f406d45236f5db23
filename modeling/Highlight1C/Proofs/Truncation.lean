import Highlight1C.Proofs.ModuleCutting
import Highlight1C.Proofs.QueryCutting
import Highlight1C.Proofs.Spans

/-!
# Sources that end earlier

A source that is cut off behind one of its tokens has the tokens up to there,
and its stream is the stream up to there with the end of a group that the cut
leaves open (`tokenize_through`). In module code this holds behind every
token, in a query behind every token that does not depend on what follows it
(`Language.Settled`).
-/

namespace Highlight1C

/-! ## Streams up to a token -/

section

variable {τ : Type}

/-- The pieces up to the `k`-th token, and none before the first. -/
def through : Nat → List (Piece τ) → List (Piece τ)
  | 0, _ => []
  | _ + 1, [] => []
  | k + 1, .token t :: ps => .token t :: through k ps
  | k + 1, .beginGroup :: ps => .beginGroup :: through (k + 1) ps
  | k + 1, .endGroup :: ps => .endGroup :: through (k + 1) ps

/-- Whether a group is open behind a piece. -/
def openAfter (isOpen : Bool) : Piece τ → Bool
  | .token _ => isOpen
  | .beginGroup => true
  | .endGroup => false

/-- Whether pieces leave a group open. -/
def leavesOpen (ps : List (Piece τ)) : Bool :=
  ps.foldl openAfter false

end

theorem through_zero (ps : List (Piece Token)) : through 0 ps = [] := by
  rw [through]

/-- The tokens up to the `k`-th are the first `k` tokens. -/
theorem tokens_through (k : Nat) (ps : List (Piece Token)) :
    TokenStream.tokens ⟨through k ps⟩ = (TokenStream.tokens ⟨ps⟩).take k := by
  induction ps generalizing k with
  | nil => cases k <;> rfl
  | cons p ps ih =>
    cases k with
    | zero => rfl
    | succ k =>
      cases p with
      | token t => rw [through, TokenStream.tokens_token, ih, TokenStream.tokens_token,
          List.take_succ_cons]
      | beginGroup => exact ih (k + 1)
      | endGroup => exact ih (k + 1)

/-- The end of a group is no token. -/
theorem tokens_closed (ps : List (Piece Token)) (isOpen : Bool) :
    TokenStream.tokens ⟨ps ++ if isOpen then [.endGroup] else []⟩ = TokenStream.tokens ⟨ps⟩ := by
  unfold TokenStream.tokens
  rw [List.filterMap_append]
  cases isOpen <;> exact List.append_nil _

/-- The pieces up to a token are the pieces before it, and the token. -/
theorem through_placeFrom {behind : List Char} {ps : List (Piece Lexeme)} {k : Nat} {t : Token}
    (h : (TokenStream.tokens ⟨placeFrom behind ps⟩)[k]? = some t) :
    ∃ before after, ps = before ++ .token t.toLexeme :: after ∧
      through (k + 1) (placeFrom behind ps) =
        placeFrom behind (before ++ [.token t.toLexeme]) := by
  induction ps generalizing behind k with
  | nil => cases h
  | cons p ps ih =>
    cases p with
    | token l =>
      rw [placeFrom, TokenStream.tokens_token] at h
      cases k with
      | zero =>
        cases h
        refine ⟨[], ps, rfl, ?_⟩
        rw [placeFrom, through, through_zero]
        rfl
      | succ k =>
        obtain ⟨before, after, rfl, hthrough⟩ := ih h
        refine ⟨.token l :: before, after, rfl, ?_⟩
        rw [placeFrom, through, hthrough]
        rfl
    | beginGroup =>
      obtain ⟨before, after, rfl, hthrough⟩ := ih h
      refine ⟨.beginGroup :: before, after, rfl, ?_⟩
      rw [placeFrom, through, hthrough]
      rfl
    | endGroup =>
      obtain ⟨before, after, rfl, hthrough⟩ := ih h
      refine ⟨.endGroup :: before, after, rfl, ?_⟩
      rw [placeFrom, through, hthrough]
      rfl

/-- Well nested pieces leave a group open if the mode behind them is that
within a string. -/
theorem foldl_openAfter_placeFrom {ps : List (Piece Lexeme)} {m m' : Mode}
    (h : m.afterAll? ps = some m') (behind : List Char) :
    (placeFrom behind ps).foldl openAfter (m == .inString) = (m' == .inString) := by
  induction ps generalizing m behind with
  | nil =>
    cases h
    rfl
  | cons p ps ih =>
    obtain ⟨m₁, hp, hps⟩ := Option.bind_eq_some_iff.mp ((Mode.afterAll?_cons m p ps) ▸ h)
    cases p with
    | token l =>
      simp only [Mode.after?] at hp
      split at hp
      · cases hp
      · cases hp
        exact ih hps _
    | beginGroup =>
      cases m with
      | initial =>
        cases hp
        exact ih hps behind
      | inString => cases hp
    | endGroup =>
      cases m with
      | initial => cases hp
      | inString =>
        cases hp
        exact ih hps behind

/-- The marker that closes an open group is written if one is open. -/
theorem closing_eq {ps : List (Piece Lexeme)} {m : Mode} (h : Mode.initial.afterAll? ps = some m)
    (behind : List Char) :
    (m.closing : List (Piece Token)) =
      if leavesOpen (placeFrom behind ps) then [.endGroup] else [] := by
  have hopen : leavesOpen (placeFrom behind ps) = (m == .inString) :=
    foldl_openAfter_placeFrom h behind
  rw [hopen]
  cases m <;> rfl

/-! ## Cuts -/

namespace Language

/-- A token behind which a source can be cut: any token of module code, and
in a query one that is neither what stands before the quote of a string, nor
a digit or sign that nothing begins with. -/
def Settled : Language → Lexeme → Prop
  | .module, _ => True
  | .query, l => QueryLexer.Settled l

theorem cuttable : (language : Language) → language.lexer.Cuttable language.held language.Settled
  | .module => ModuleLexer.cuttable
  | .query => QueryLexer.cuttable

/-- The events of a source that is cut off behind a settled token. -/
theorem events_cut {language : Language} {source : List Char} {before after : List (Piece Lexeme)}
    {l : Lexeme} (he : language.events source = before ++ .token l :: after)
    (hl : language.Settled l) :
    ∃ m, Mode.initial.afterAll? (before ++ [.token l]) = some m ∧
      language.events (textOf (before ++ [.token l])) = before ++ .token l :: m.closing := by
  obtain ⟨n, m, htext, hmode, hevents⟩ := language.cuttable.cutsAfter language.lossless he hl
  rw [language.lossless.start_held, List.nil_append] at htext
  rw [language.lossless.start_mode] at hmode
  refine ⟨m, hmode, ?_⟩
  rw [htext]
  exact hevents

theorem stream_nil (language : Language) : language.stream [] = ⟨[]⟩ := by
  unfold stream events
  rw [Lexer.eventsFrom_nil]
  cases language <;> rfl

/-- The stream of a source that is cut off behind a settled token, -/
theorem stream_cut_succ {language : Language} {source : List Char} {k : Nat} {t : Token}
    (h : (language.stream source).tokens[k]? = some t) (ht : language.Settled t.toLexeme) :
    (language.stream (((language.stream source).tokens.take (k + 1)).flatMap (·.text))).pieces =
      through (k + 1) (language.stream source).pieces ++
        if leavesOpen (through (k + 1) (language.stream source).pieces) then [.endGroup] else [] := by
  obtain ⟨before, after, hevents, hthrough⟩ := through_placeFrom h
  obtain ⟨m, hmode, hcut⟩ := events_cut hevents ht
  have htext : ((language.stream source).tokens.take (k + 1)).flatMap (·.text) =
      textOf (before ++ [.token t.toLexeme]) := by
    rw [← text_placeFrom [], ← hthrough, TokenStream.text, tokens_through]
    rfl
  have hpieces : through (k + 1) (language.stream source).pieces =
      placeFrom [] (before ++ [.token t.toLexeme]) := hthrough
  rw [htext, hpieces, ← closing_eq hmode]
  show placeFrom [] (language.events (textOf (before ++ [.token t.toLexeme]))) = _
  rw [hcut, ← placeFrom_closing ([] ++ textOf (before ++ [.token t.toLexeme])) m, ← placeFrom_append]
  simp

/-- or before all tokens. -/
theorem stream_cut {language : Language} {source : List Char} {k : Nat}
    (hk : k ≤ (language.stream source).length)
    (hsettled : ∀ t, ((language.stream source).tokens.take k).getLast? = some t →
      language.Settled t.toLexeme) :
    (language.stream (((language.stream source).tokens.take k).flatMap (·.text))).pieces =
      through k (language.stream source).pieces ++
        if leavesOpen (through k (language.stream source).pieces) then [.endGroup] else [] := by
  cases k with
  | zero =>
    rw [through_zero, List.take_zero, List.flatMap_nil, language.stream_nil]
    rfl
  | succ k =>
    have ht : (language.stream source).tokens[k]? = some (language.stream source).tokens[k] :=
      List.getElem?_eq_getElem hk
    refine stream_cut_succ ht (hsettled _ ?_)
    rw [List.getLast?_take, if_neg (Nat.succ_ne_zero k), Nat.add_sub_cancel, ht]
    rfl

end Language

/-- A source of at most 2³² − 2 characters can be cut off behind its `k`-th
token, if that token is settled, and before all of its tokens (`k = 0`). What
is left has exactly the first `k` tokens, in the same places, and its pieces
are those of the whole source up to the `k`-th token, and the end of a group
exactly if one is open there. The tokens of the whole source make it up, so
that what is left is a beginning of it. -/
theorem tokenize_through (language : Language) (source : List Char)
    (hsize : source.length ≤ sourceBound) :
    ∃ stream, tokenize language source = .ok (.ok stream) ∧ stream.text = source ∧
      ∀ k ≤ stream.length,
        (∀ t, (stream.tokens.take k).getLast? = some t → language.Settled t.toLexeme) →
        ∃ cut, tokenize language ((stream.tokens.take k).flatMap (·.text)) = .ok (.ok cut) ∧
          cut.tokens = stream.tokens.take k ∧
          cut.pieces = through k stream.pieces ++
            if leavesOpen (through k stream.pieces) then [.endGroup] else [] := by
  refine ⟨language.stream source, tokenize_eq hsize, text_stream language source,
    fun k hk hsettled => ?_⟩
  have hlen : (((language.stream source).tokens.take k).flatMap (·.text)).length ≤ sourceBound := by
    have hsource := text_stream language source
    rw [TokenStream.text, ← List.take_append_drop k (language.stream source).tokens,
      List.flatMap_append] at hsource
    have := congrArg List.length hsource
    rw [List.length_append] at this
    omega
  have hpieces := Language.stream_cut hk hsettled
  refine ⟨_, tokenize_eq hlen, ?_, hpieces⟩
  have htokens := tokens_closed (through k (language.stream source).pieces)
    (leavesOpen (through k (language.stream source).pieces))
  rw [← hpieces, tokens_through] at htokens
  exact htokens

/-- A query that is cut off within a string. -/
theorem tokenize_through_content :
    ∃ stream, tokenize .query ['=', '\x27', 'я', '\\', 'n', '\x27'] = .ok (.ok stream) ∧
      ∃ cut, tokenize .query ['=', '\x27', 'я'] = .ok (.ok cut) ∧
        cut.tokens = stream.tokens.take 3 ∧
        cut.pieces = through 3 stream.pieces ++ [.endGroup] := by
  obtain ⟨stream, hstream, -, hcut⟩ :=
    tokenize_through .query ['=', '\x27', 'я', '\\', 'n', '\x27'] (by decide)
  cases hstream.symm.trans (tokenize_eq (by decide))
  have htext : ((Language.stream .query ['=', '\x27', 'я', '\\', 'n', '\x27']).tokens.take 3).flatMap
      (·.text) = ['=', '\x27', 'я'] := by decide +kernel
  have hopen : leavesOpen (through 3
      (Language.stream .query ['=', '\x27', 'я', '\\', 'n', '\x27']).pieces) = true := by
    decide +kernel
  have hlast : ((Language.stream .query ['=', '\x27', 'я', '\\', 'n', '\x27']).tokens.take 3).getLast?.map
      (·.toLexeme) = some ⟨.content, ['я']⟩ := by decide +kernel
  have hcut := hcut 3 (by decide +kernel) fun t ht => by
    rw [ht] at hlast
    have hl : t.toLexeme = ⟨.content, ['я']⟩ := Option.some.inj hlast
    rw [hl]
    exact ⟨by decide, fun h => absurd h.1 (by decide)⟩
  rw [htext, hopen] at hcut
  exact ⟨_, hstream, hcut⟩

end Highlight1C
