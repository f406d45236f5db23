import Highlight1C.Proofs.Scan

/-!
# Scanning again from the middle

At a head of the loop where the lexer is as at the beginning
(`Language.fresh`), the rest of a scan is the scan of the rest: the pieces
still to come are those of the rest of the source as a source of its own,
with every span moved behind what has been read (`tokenize_restart`).
Nothing else is carried over from one part to the other, because the events
still to come depend only on the state and the rest, and the places of pieces
behind two texts are their places behind the second, moved by the first
(`placeFrom_shift`).
-/

namespace Highlight1C

/-! ## Pieces behind a longer text -/

/-- A span of a text, when the text `behind` is put in front of it. -/
def Span.shift (behind : List Char) (s : Span) : Span where
  start := s.start.shift behind
  stop := s.stop.shift behind

/-- A token of a text, when the text `behind` is put in front of it. -/
def Token.shift (behind : List Char) (t : Token) : Token where
  toLexeme := t.toLexeme
  span := t.span.shift behind

/-- A piece of a text, when the text `behind` is put in front of it. -/
def Piece.shift (behind : List Char) : Piece Token → Piece Token
  | .token t => .token (t.shift behind)
  | .beginGroup => .beginGroup
  | .endGroup => .endGroup

theorem Lexeme.placed_append (a b : List Char) (l : Lexeme) :
    l.placed (a ++ b) = (l.placed b).shift a := by
  simp only [Lexeme.placed, Token.shift, Span.shift, List.append_assoc, Position.after_append a]

/-- Pieces behind two texts are those behind the second, moved by the first. -/
theorem placeFrom_shift (a b : List Char) (ps : List (Piece Lexeme)) :
    placeFrom (a ++ b) ps = (placeFrom b ps).map (Piece.shift a) := by
  induction ps generalizing b with
  | nil => rfl
  | cons p ps ih =>
    cases p with
    | token l =>
      rw [placeFrom, placeFrom, List.map_cons, ← ih, ← List.append_assoc, l.placed_append]
      rfl
    | beginGroup => rw [placeFrom, placeFrom, List.map_cons, ← ih]; rfl
    | endGroup => rw [placeFrom, placeFrom, List.map_cons, ← ih]; rfl

/-! ## Heads of the loop -/

/-- Outside strings, and the next word is not bound to be a name. -/
def Language.fresh : (language : Language) → language.State
  | .module => ModuleLexer.State.code false
  | .query => QueryLexer.State.code false

/-- A lexer begins outside strings, where nothing is known of the next word. -/
theorem Language.fresh_eq (language : Language) : language.fresh = language.lexer.start := by
  cases language <;> rfl

/-- Where the lexer is as at the beginning, the stream is what has been
written so far and the stream of the rest, moved behind what has been read. -/
theorem Language.stream_restart {language : Language} {source rest : List Char}
    {written : List (Piece Lexeme)}
    (hr : language.lexer.Reaches source written language.fresh rest) :
    source = textOf written ++ rest ∧
      (language.stream source).pieces =
        placeFrom [] written ++ (language.stream rest).pieces.map (Piece.shift (textOf written)) := by
  rw [language.fresh_eq] at hr
  obtain ⟨hsource, hevents⟩ := language.lossless.of_reaches hr
  rw [language.lossless.start_held, List.append_nil] at hsource
  refine ⟨hsource, ?_⟩
  show placeFrom [] (language.lexer.eventsFrom language.lexer.start source) = _
  rw [hevents, placeFrom_append, List.nil_append]
  have hshift := placeFrom_shift (textOf written) [] (language.events rest)
  rw [List.append_nil] at hshift
  exact congrArg _ hshift

/-- A scan can be restarted in the middle. Let a scan of a source of at most
2³² − 2 characters come to a head of its loop outside strings, where the next
word is not bound to be a name. What has been read by then is the text of
what has been written, and the source can be cut there. The pieces from there
to the end are those of the rest, scanned as a source of its own, with every
span moved: offsets by the bytes of what has been read, lines by its line
feeds, and columns on the first line by the characters of its last line
(`Position.shift`). -/
theorem tokenize_restart (language : Language) (source rest : List Char)
    (written : List (Piece Lexeme)) (hsize : source.length ≤ sourceBound)
    (hr : language.lexer.Reaches source written language.fresh rest) :
    let passed := textOf written
    Text.cut? (Text.byteLength passed) source = some (passed, rest) ∧
      ∃ stream tail, tokenize language source = .ok (.ok stream) ∧
        tokenize language rest = .ok (.ok tail) ∧
        stream.pieces = placeFrom [] written ++ tail.pieces.map (Piece.shift passed) := by
  obtain ⟨hsource, hstream⟩ := language.stream_restart hr
  have hrest : rest.length ≤ sourceBound := by
    rw [hsource, List.length_append] at hsize
    omega
  refine ⟨?_, _, _, tokenize_eq hsize, tokenize_eq hrest, hstream⟩
  rw [hsource]
  exact Text.cut?_append _ _

/-- A query can be scanned again from behind a string over two lines. -/
theorem tokenize_restart_after_string :
    QueryLexer.lexer.Reaches ['\x27', 'ж', '\n', '\x27', '=', '1']
      [.beginGroup, .token ⟨.delimiter, ['\x27']⟩, .token ⟨.content, ['ж', '\n']⟩,
        .token ⟨.delimiter, ['\x27']⟩, .endGroup] (.code false) ['=', '1'] ∧
    Text.cut? 5 ['\x27', 'ж', '\n', '\x27', '=', '1'] = some (['\x27', 'ж', '\n', '\x27'], ['=', '1']) ∧
    ∃ stream tail, tokenize .query ['\x27', 'ж', '\n', '\x27', '=', '1'] = .ok (.ok stream) ∧
      tokenize .query ['=', '1'] = .ok (.ok tail) ∧
      stream.pieces.drop 5 = tail.pieces.map (Piece.shift ['\x27', 'ж', '\n', '\x27']) := by
  have hstart : QueryLexer.lexer.Reaches ['\x27', 'ж', '\n', '\x27', '=', '1'] [] (.code false)
      ('\x27' :: ['ж', '\n', '\x27', '=', '1']) := .start
  have hopening : QueryLexer.lexer.step (.code false) '\x27' ['ж', '\n', '\x27', '=', '1'] =
    some (QueryLexer.openingMove false [] '\x27') := rfl
  have hplain : QueryLexer.lexer.step (.string false '\x27' []) 'ж' ['\n', '\x27', '=', '1'] =
    some ⟨[], 1, .string false '\x27' ['\n', 'ж']⟩ := rfl
  have hclosing : QueryLexer.lexer.step (.string false '\x27' ['\n', 'ж']) '\x27' ['=', '1'] =
    some ⟨[.token ⟨.content, ['ж', '\n']⟩, .token ⟨.delimiter, ['\x27']⟩, .endGroup], 0,
      .code false⟩ := rfl
  have hr := ((hstart.move hopening).move hplain).move hclosing
  obtain ⟨hcut, stream, tail, hs, ht, hp⟩ := tokenize_restart .query _ _ _ (by decide) hr
  exact ⟨hr, hcut, stream, tail, hs, ht, by rw [hp]; rfl⟩

end Highlight1C
