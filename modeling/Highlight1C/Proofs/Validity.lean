import Highlight1C.Proofs.Cursor
import Highlight1C.Proofs.Postings
import Highlight1C.Proofs.Spans

/-!
# Every source can be highlighted

The stream of a source passes its own check: its texts make up the source
(`lossFrom_placeFrom`), its groups are well nested (`nestingFrom_placeFrom`)
and its spans follow on one another (`placingFrom_placeFrom`), whatever the
source (`validate_stream`). Before each move of the lexer, a byte cursor that
stands at the end of what has been read can be moved over what the lexer
takes (`movesOn_of_reaches`).

Together: a source of at most 2³² − 2 characters is highlighted without a
broken contract, without a fault of the lexer and without an error in the
log (`highlightSource_total`).
-/

namespace Highlight1C

open Text

/-! ## The stream passes its check -/

/-- The texts of placed pieces make up the text of the pieces. -/
theorem lossFrom_placeFrom {ps : List (Piece Lexeme)} (hfull : ∀ l, .token l ∈ ps → l.text ≠ [])
    (behind : List Char) (offset : Nat) :
    TokenStream.lossFrom offset (TokenStream.tokens ⟨placeFrom behind ps⟩) (textOf ps) = none := by
  induction ps generalizing behind offset with
  | nil => rfl
  | cons p ps ih =>
    have hfull' : ∀ l, .token l ∈ ps → l.text ≠ [] := fun l hl => hfull l (List.mem_cons_of_mem _ hl)
    cases p with
    | token l =>
      have hempty : l.text.isEmpty = false := by simpa using hfull l List.mem_cons_self
      have hprefix : l.text.isPrefixOf (l.text ++ textOf ps) = true :=
        List.isPrefixOf_iff_prefix.mpr (List.prefix_append _ _)
      have htext : (l.placed behind).text = l.text := rfl
      rw [placeFrom, TokenStream.tokens_token, textOf_token, TokenStream.lossFrom, htext, hempty,
        hprefix, List.drop_left]
      exact ih hfull' _ _
    | beginGroup => exact ih hfull' behind offset
    | endGroup => exact ih hfull' behind offset

/-- Well nested pieces that leave no group open are so in their places. -/
theorem nestingFrom_placeFrom {ps : List (Piece Lexeme)} {m : Mode}
    (h : m.afterAll? ps = some .initial) (behind : List Char) (index : Nat) :
    TokenStream.nestingFrom index (m == .inString) (placeFrom behind ps) = none := by
  induction ps generalizing m behind index with
  | nil =>
    cases h
    rfl
  | cons p ps ih =>
    obtain ⟨m', hp, hps⟩ := Option.bind_eq_some_iff.mp ((Mode.afterAll?_cons m p ps) ▸ h)
    have ih := fun behind => ih hps behind (index + 1)
    cases p with
    | token l =>
      simp only [Mode.after?] at hp
      split at hp
      · cases hp
      · next hpart =>
        cases hp
        have hstray : (l.kind.isStringPart && !(m == .inString)) = false := by
          cases m <;> simp_all
        rw [placeFrom, TokenStream.nestingFrom]
        simp only [Lexeme.placed, hstray, Bool.false_eq_true, if_false]
        exact ih _
    | beginGroup =>
      cases m with
      | initial =>
        cases hp
        exact ih behind
      | inString => cases hp
    | endGroup =>
      cases m with
      | initial => cases hp
      | inString =>
        cases hp
        exact ih behind

/-- The spans of placed pieces follow on one another. -/
theorem placingFrom_placeFrom (behind : List Char) (ps : List (Piece Lexeme)) :
    TokenStream.placingFrom (byteLength behind) (TokenStream.tokens ⟨placeFrom behind ps⟩) =
      .ok none := by
  induction ps generalizing behind with
  | nil => rfl
  | cons p ps ih =>
    cases p with
    | token l =>
      have hstart : (l.placed behind).span.start.offset = byteLength behind := rfl
      have hlength : (l.placed behind).span.length = .ok (byteLength l.text) :=
        Span.length_between behind l.text
      rw [placeFrom, TokenStream.tokens_token, TokenStream.placingFrom, hstart, hlength]
      simp only [ne_eq, not_true, if_false, bind, Except.bind, pure, Except.pure, Lexeme.placed]
      exact ih (behind ++ l.text)
    | beginGroup => exact ih behind
    | endGroup => exact ih behind

section

variable (language : Language) (source : List Char)

theorem loss?_stream : (language.stream source).loss? source = none := by
  have h := lossFrom_placeFrom (language.full_events source) [] 0
  rwa [language.textOf_events] at h

theorem nesting?_stream : (language.stream source).nesting? = none :=
  nestingFrom_placeFrom (language.nested_events source) [] 0

theorem placing?_stream : (language.stream source).placing? = .ok none :=
  placingFrom_placeFrom [] (language.events source)

/-- The stream of a source is well formed over it. -/
theorem validate_stream : (language.stream source).validate source = .ok none := by
  rw [TokenStream.validate, loss?_stream, nesting?_stream]
  exact placing?_stream language source

end

/-! ## The cursor at a head of the loop -/

/-- At a head of the loop, a byte cursor stands at the end of what has been
read, which lies between two characters. Unless the text ends there, some
rule applies, and the cursor can be moved over what its move takes. -/
def Language.MovesOn (language : Language) (source : List Char) (state : language.State)
    (rest : List Char) : Prop :=
  ∃ passed, source = passed ++ rest ∧
    (⟨source, .after passed⟩ : Cursor).rest = .ok rest ∧
    ∀ c cs, rest = c :: cs → ∃ move, language.lexer.step state c cs = some move ∧
      move.further ≤ cs.length ∧
      (⟨source, .after passed⟩ : Cursor).take (byteLength (c :: cs.take move.further)) =
        .ok (c :: cs.take move.further, ⟨source, .after (passed ++ c :: cs.take move.further)⟩)

theorem movesOn_of_reaches {language : Language} {source : List Char}
    (hsize : source.length ≤ sourceBound) {written : List (Piece Lexeme)} {state : language.State}
    {rest : List Char} (hr : language.lexer.Reaches source written state rest) :
    language.MovesOn source state rest := by
  obtain ⟨hsource, -⟩ := language.lossless.of_reaches hr
  refine ⟨_, hsource, ?_, ?_⟩
  · rw [hsource]
    exact Cursor.rest_after _ _
  · rintro c cs rfl
    obtain ⟨move, hs, hk⟩ := language.lossless.step state c cs
    have hsplit : c :: cs = (c :: cs.take move.further) ++ cs.drop move.further := by
      rw [List.cons_append, List.take_append_drop]
    rw [hsplit, ← List.append_assoc] at hsource
    refine ⟨move, hs, hk.within, ?_⟩
    rw [hsource] at hsize ⊢
    exact Cursor.take_after _ _ _ hsize

/-! ## Highlighting -/

/-- Room can be made for the stream of a source. -/
theorem roomFor_of_length_le {source : List Char} (hsize : source.length ≤ sourceBound) :
    ∃ room, TokenStream.roomFor (byteLength source) = .ok room := by
  have hbytes := byteLength_le source
  have hbound : sourceBound = 0xfffffffe := rfl
  have hroom : (byteLength source / Limits.current.tokenCapacityDivisor + 1) *
      TokenStream.pieceBytes < TokenStream.roomBound := by
    show (byteLength source / 4 + 1) * 64 < 0x8000000000000000
    omega
  exact ⟨_, if_pos hroom⟩

open Log (Event)

theorem logs_reportErrors (language : Language) (stream : TokenStream) (logging : Logging) :
    Logging.Logs Event.NoError logging (reportErrors language stream logging) := by
  unfold reportErrors
  split
  · exact .refl _ _
  · refine Logging.logs_post ?_ logging true _
    show Log.Level.warning ≠ .error ∧ Log.Code.unrecognizedCharacter ≠ .internalError
    decide

/-- Highlighting yields the stream of the source, and logs no error. -/
theorem highlightSource_eq {language : Language} {source : List Char}
    (hsize : source.length ≤ sourceBound) (preferences : ScannerPreferences) (logging : Logging) :
    ∃ highlight logging', highlightSource language source preferences logging =
        .ok (.ok highlight, logging') ∧ highlight.tokens = language.stream source ∧
      Logging.Logs Event.NoError logging logging' := by
  have hstream : (Session.final language preferences preferences.collectMetrics source
      logging).result.stream = language.stream source :=
    Session.stream_final preferences preferences.collectMetrics logging
  have hlogs := Session.logs_final language preferences preferences.collectMetrics source logging
  simp only [highlightSource, Session.scan_eq preferences preferences.collectMetrics logging hsize,
    checkStream, bind, Except.bind, hstream, validate_stream]
  refine ⟨_, _, rfl, rfl, Logging.Logs.trans hlogs ?_⟩
  refine Logging.Logs.trans ?_ (logs_reportErrors _ _ _)
  refine Logging.Posts.logs (Q := Posting.Aside) ?_ fun _ h => h.noError
  refine Logging.Posts.trans (Logging.posts_success ?_ _ _ _) (Logging.posts_success ?_ _ _ _)
  · show Log.Code.scanDone ≠ .internalError
    decide
  · show Log.Code.streamValidated ≠ .internalError
    decide

/-- A source of at most 2³² − 2 characters can be highlighted. Every scan of
it comes to its end and yields one and the same stream, which `tokenize`
returns: no contract is broken on the way (`.ok` outside) and no rule is
missing (`.ok` inside), room can be made for the stream, at each head of the
loop the cursor can be moved on, and each token can be cut out of the source.
The texts of the tokens make up the source, and the stream passes its check.
So highlighting succeeds with that stream, and logs no error, in particular
none under `ERR001`. -/
theorem highlightSource_total (language : Language) (source : List Char)
    (hsize : source.length ≤ sourceBound) :
    ∃ stream : TokenStream,
      (∀ preferences keepMetrics logging, ∃ scan logging',
        Session.scan language preferences keepMetrics source logging = .ok (.ok scan, logging') ∧
          scan.stream = stream) ∧
      tokenize language source = .ok (.ok stream) ∧
      (∃ room, TokenStream.roomFor (byteLength source) = .ok room) ∧
      (∀ written state rest, language.lexer.Reaches source written state rest →
        language.MovesOn source state rest) ∧
      (∀ t ∈ stream.tokens, t.span.slice source = .ok t.text) ∧
      stream.text = source ∧
      stream.validate source = .ok none ∧
      ∀ preferences logging, ∃ highlight logging',
        highlightSource language source preferences logging = .ok (.ok highlight, logging') ∧
          highlight.tokens = stream ∧ Logging.Logs Event.NoError logging logging' := by
  refine ⟨language.stream source, fun preferences keepMetrics logging => ?_, tokenize_eq hsize,
    roomFor_of_length_le hsize, fun written state rest hr => movesOn_of_reaches hsize hr,
    fun t ht => ?_, text_stream language source, validate_stream language source,
    highlightSource_eq hsize⟩
  · exact ⟨_, _, Session.scan_eq preferences keepMetrics logging hsize,
      Session.stream_final preferences keepMetrics logging⟩
  · obtain ⟨before, after, h⟩ := List.append_of_mem ht
    exact slice_of_tokens_eq h

/-- A query that ends within an escape within a string. -/
theorem highlightSource_total_open_escape :
    ['\x27', 'я', '😀', '\\'].length ≤ sourceBound ∧
    ∃ stream, tokenize .query ['\x27', 'я', '😀', '\\'] = .ok (.ok stream) ∧
      stream.text = ['\x27', 'я', '😀', '\\'] ∧
      stream.validate ['\x27', 'я', '😀', '\\'] = .ok none ∧
      ∀ preferences logging, ∃ highlight logging',
        highlightSource .query ['\x27', 'я', '😀', '\\'] preferences logging =
          .ok (.ok highlight, logging') ∧
          highlight.tokens = stream ∧ Logging.Logs Event.NoError logging logging' := by
  obtain ⟨stream, -, htokenize, -, -, -, htext, hvalid, hhighlight⟩ :=
    highlightSource_total .query ['\x27', 'я', '😀', '\\'] (by decide)
  exact ⟨by decide, stream, htokenize, htext, hvalid, hhighlight⟩

end Highlight1C
