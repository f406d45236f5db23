import Highlight1C.Proofs.Scan

/-!
# Tokens in their places

The tokens of a scan lie one behind the other: each starts where the text of
the tokens before it ends, and ends where its own text ends
(`placed_of_tokens_eq`). Its span is thus known in full, and cuts its text
out of the source (`token_spans`).
-/

namespace Highlight1C

/-- The texts of placed tokens are the texts of the pieces. -/
theorem text_placeFrom (behind : List Char) (ps : List (Piece Lexeme)) :
    TokenStream.text ⟨placeFrom behind ps⟩ = textOf ps := by
  induction ps generalizing behind with
  | nil => rfl
  | cons p ps ih =>
    simp only [TokenStream.text] at ih ⊢
    cases p <;> simp [placeFrom, ih, Lexeme.placed]

theorem text_stream (language : Language) (source : List Char) :
    (language.stream source).text = source := by
  rw [Language.stream, text_placeFrom, language.textOf_events]

/-- A placed token stands behind the texts of the tokens before it. -/
theorem placed_of_placeFrom_eq {behind : List Char} {ps : List (Piece Lexeme)}
    {before after : List Token} {t : Token}
    (h : TokenStream.tokens ⟨placeFrom behind ps⟩ = before ++ t :: after) :
    t = t.toLexeme.placed (behind ++ before.flatMap (·.text)) := by
  induction ps generalizing behind before with
  | nil => simp [placeFrom] at h
  | cons p ps ih =>
    cases p with
    | token l =>
      rw [placeFrom, TokenStream.tokens_token] at h
      cases before with
      | nil =>
        obtain ⟨rfl, -⟩ := List.cons.inj h
        simp [Lexeme.placed]
      | cons first before =>
        obtain ⟨rfl, h'⟩ := List.cons.inj h
        have := ih h'
        rw [List.append_assoc] at this
        exact this
    | beginGroup => exact ih h
    | endGroup => exact ih h

/-- A token of a scan stands behind the texts of the tokens before it, and
the source goes on behind it. -/
theorem placed_of_tokens_eq {language : Language} {source : List Char} {before after : List Token}
    {t : Token} (h : (language.stream source).tokens = before ++ t :: after) :
    t = t.toLexeme.placed (before.flatMap (·.text)) ∧
      before.flatMap (·.text) ++ t.text ++ after.flatMap (·.text) = source := by
  refine ⟨?_, ?_⟩
  · have := placed_of_placeFrom_eq h
    rwa [List.nil_append] at this
  · have htext := text_stream language source
    rw [TokenStream.text, h] at htext
    simpa using htext

/-- The span of a token cuts its text out of the source. -/
theorem slice_of_tokens_eq {language : Language} {source : List Char} {before after : List Token}
    {t : Token} (h : (language.stream source).tokens = before ++ t :: after) :
    t.span.slice source = .ok t.text := by
  obtain ⟨hplaced, hsource⟩ := placed_of_tokens_eq h
  have hspan : t.span = (t.toLexeme.placed (before.flatMap (·.text))).span := congrArg Token.span hplaced
  rw [hspan, ← hsource]
  exact Span.slice_between _ _ _

/-- The span of every token of a source of at most 2³² − 2 characters: it
starts where passing the texts of the earlier tokens from the start of the
source leads to, and ends where passing its own text leads to. In closed
form, that is at the bytes of the text passed, on the line after its line
feeds, and in the column after the characters of its last line
(`Position.after`). The span cuts the token's text out of the source. -/
theorem token_spans (language : Language) (source : List Char)
    (hsize : source.length ≤ sourceBound) :
    ∃ stream, tokenize language source = .ok (.ok stream) ∧
      ∀ before t after, stream.tokens = before ++ t :: after →
        let passed := before.flatMap (·.text)
        Position.start.advanceText passed = .ok t.span.start ∧
        Position.start.advanceText (passed ++ t.text) = .ok t.span.stop ∧
        t.span.start = .after passed ∧
        t.span.stop = .after (passed ++ t.text) ∧
        t.span.slice source = .ok t.text := by
  refine ⟨_, tokenize_eq hsize, fun before t after h => ?_⟩
  obtain ⟨hplaced, hsource⟩ := placed_of_tokens_eq h
  have hspan : t.span = (t.toLexeme.placed (before.flatMap (·.text))).span := congrArg Token.span hplaced
  have hlen : (before.flatMap (·.text)).length + t.text.length ≤ source.length := by
    have := congrArg List.length hsource
    simp only [List.length_append] at this
    omega
  refine ⟨?_, ?_, ?_, ?_, slice_of_tokens_eq h⟩
  · rw [hspan]
    exact Position.advanceText_start (by omega)
  · rw [hspan]
    exact Position.advanceText_start (by rw [List.length_append]; omega)
  · rw [hspan]
    rfl
  · rw [hspan]
    rfl

/-- The content of a string over two lines, in a query, has its place. -/
theorem token_spans_two_lines :
    ∃ stream t, tokenize .query ['=', '\x27', 'ж', '\n', 'я', '\x27', '.'] = .ok (.ok stream) ∧
      stream.tokens[2]? = some t ∧ t.toLexeme = ⟨.content, ['ж', '\n', 'я']⟩ ∧
      t.span.start = ⟨2, 1, 3⟩ ∧ t.span.stop = ⟨7, 2, 2⟩ ∧
      t.span.slice ['=', '\x27', 'ж', '\n', 'я', '\x27', '.'] = .ok ['ж', '\n', 'я'] := by
  obtain ⟨stream, hstream, hspans⟩ :=
    token_spans .query ['=', '\x27', 'ж', '\n', 'я', '\x27', '.'] (by decide)
  cases hstream.symm.trans (tokenize_eq (by decide))
  have hbefore : ((Language.stream .query ['=', '\x27', 'ж', '\n', 'я', '\x27', '.']).tokens.take
      2).flatMap (·.text) = ['=', '\x27'] := by decide +kernel
  have hcontent : (Language.stream .query ['=', '\x27', 'ж', '\n', 'я', '\x27', '.']).tokens[2]?.map
      (·.toLexeme) = some ⟨.content, ['ж', '\n', 'я']⟩ := by decide +kernel
  obtain ⟨t, ht, hl⟩ := Option.map_eq_some_iff.mp hcontent
  have htext : t.text = ['ж', '\n', 'я'] := congrArg Lexeme.text hl
  obtain ⟨hlt, hget⟩ := List.getElem?_eq_some_iff.mp ht
  obtain ⟨-, -, hstart, hstop, hslice⟩ := hspans _ t _ (by
    rw [← hget, ← List.drop_eq_getElem_cons hlt, List.take_append_drop])
  rw [hbefore] at hstart hstop
  rw [htext] at hstop hslice
  exact ⟨_, t, hstream, ht, hl, hstart.trans (by decide), hstop.trans (by decide), hslice⟩

end Highlight1C
