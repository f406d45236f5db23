import Highlight1C.Session
import Highlight1C.Proofs.ModuleLexer
import Highlight1C.Proofs.Position
import Highlight1C.Proofs.QueryLexer

/-!
# What a scan yields

`Language.lexer` names the lexer of a language, and `Language.events` all
that it writes about a source. `placeFrom` puts pieces into their places in
closed form: each token between the ends of the texts before and after it.
A session takes in pieces that are in their places without fail
(`Session.receive`), and feeding it what a lexer writes is the same, as long
as the source has at most `sourceBound` characters (`foldlM_feed`). So
`Language.stream`, the events of a source in their places, is the stream of
every scan (`scan_eq`, `stream_final`) and what `tokenize` returns
(`tokenize_eq`).
-/

namespace Highlight1C

/-! ## Lexers by language -/

namespace Language

/-- The states of a language's lexer. -/
def State : Language → Type
  | .module => ModuleLexer.State
  | .query => QueryLexer.State

/-- The lexer of a language. -/
def lexer : (language : Language) → Lexer language.State
  | .module => ModuleLexer.lexer
  | .query => QueryLexer.lexer

/-- The characters that a language's lexer holds back. -/
def held : (language : Language) → language.State → List Char
  | .module => ModuleLexer.held
  | .query => QueryLexer.held

theorem lossless : (language : Language) → language.lexer.Lossless language.held
  | .module => ModuleLexer.lossless
  | .query => QueryLexer.lossless

theorem read_eq (language : Language) (source : List Char) :
    language.read source = language.lexer.read source := by
  cases language <;> rfl

/-- All that is written about a source in a language. -/
def events (language : Language) (source : List Char) : List (Piece Lexeme) :=
  language.lexer.eventsFrom language.lexer.start source

/-- The events are what the lexer writes, and the marker that closes an open
string. -/
theorem events_eq (language : Language) (source : List Char) :
    language.events source =
      (language.read source).pieces ++ (language.read source).mode.closing := by
  rw [read_eq]
  rfl

theorem rest_read (language : Language) (source : List Char) : (language.read source).rest = [] := by
  rw [read_eq]
  exact language.lossless.rest_runFrom _ _

theorem textOf_events (language : Language) (source : List Char) :
    textOf (language.events source) = source := by
  rw [events, language.lossless.textOf_eventsFrom, language.lossless.start_held, List.nil_append]

theorem textOf_pieces_read (language : Language) (source : List Char) :
    textOf (language.read source).pieces = source := by
  have h := language.textOf_events source
  rwa [events_eq, textOf_append, Mode.textOf_closing, List.append_nil] at h

theorem full_events (language : Language) (source : List Char) :
    ∀ l, .token l ∈ language.events source → l.text ≠ [] :=
  language.lossless.full_eventsFrom _ _

theorem nested_events (language : Language) (source : List Char) :
    Mode.initial.afterAll? (language.events source) = some .initial := by
  have h := language.lossless.nested_eventsFrom language.lexer.start source
  rwa [language.lossless.start_mode] at h

/-- A scan comes to the end of the source, in the mode that the reading has. -/
theorem exists_reaches_nil (language : Language) (source : List Char) :
    ∃ written state, language.lexer.Reaches source written state [] ∧
      language.lexer.mode state = (language.read source).mode := by
  have hstart : language.lexer.Reaches source [] language.lexer.start source := .start
  obtain ⟨written, hr⟩ := language.lossless.exists_reaches_nil hstart
  refine ⟨written, _, hr, ?_⟩
  rw [read_eq]
  rfl

end Language

/-! ## Pieces in their places -/

namespace TokenStream

@[simp] theorem tokens_nil : tokens ⟨[]⟩ = [] := rfl

@[simp] theorem tokens_token (t : Token) (ps : List (Piece Token)) :
    tokens ⟨.token t :: ps⟩ = t :: tokens ⟨ps⟩ := rfl

@[simp] theorem tokens_beginGroup (ps : List (Piece Token)) :
    tokens ⟨.beginGroup :: ps⟩ = tokens ⟨ps⟩ := rfl

@[simp] theorem tokens_endGroup (ps : List (Piece Token)) :
    tokens ⟨.endGroup :: ps⟩ = tokens ⟨ps⟩ := rfl

end TokenStream

/-- A lexeme in its place behind a text. -/
def Lexeme.placed (behind : List Char) (l : Lexeme) : Token where
  toLexeme := l
  span := ⟨.after behind, .after (behind ++ l.text)⟩

/-- Puts pieces into their places behind a text, one after the other. -/
def placeFrom (behind : List Char) : List (Piece Lexeme) → List (Piece Token)
  | [] => []
  | .token l :: ps => .token (l.placed behind) :: placeFrom (behind ++ l.text) ps
  | .beginGroup :: ps => .beginGroup :: placeFrom behind ps
  | .endGroup :: ps => .endGroup :: placeFrom behind ps

theorem placeFrom_append (behind : List Char) (a b : List (Piece Lexeme)) :
    placeFrom behind (a ++ b) = placeFrom behind a ++ placeFrom (behind ++ textOf a) b := by
  induction a generalizing behind with
  | nil => simp [placeFrom]
  | cons p ps ih => cases p <;> simp [placeFrom, ih]

theorem placeFrom_closing (behind : List Char) (m : Mode) :
    placeFrom behind m.closing = m.closing := by
  cases m <;> rfl

/-- The stream of a source: its events in their places. -/
def Language.stream (language : Language) (source : List Char) : TokenStream :=
  ⟨placeFrom [] (language.events source)⟩

theorem Language.pieces_stream (language : Language) (source : List Char) :
    (language.stream source).pieces =
      placeFrom [] (language.read source).pieces ++ (language.read source).mode.closing := by
  rw [stream, events_eq, placeFrom_append, placeFrom_closing]

/-! ## Sessions -/

namespace Session

variable (language : Language) (preferences : ScannerPreferences)

/-- Takes in a piece that is in its place. -/
def receive (s : Session) : Piece Token → Session
  | .token t =>
    let s := { s.put (.token t) with position := t.span.stop, tokens := s.tokens + 1 }
    if t.kind = .error then s.noteError language preferences t else s
  | .beginGroup => s.put .beginGroup
  | .endGroup => s.put .endGroup

theorem receive_token_position (s : Session) (t : Token) :
    (s.receive language preferences (.token t)).position = t.span.stop := by
  simp only [receive]
  split <;> rfl

theorem receive_written (s : Session) (p : Piece Token) :
    (s.receive language preferences p).written = p :: s.written := by
  cases p with
  | token t =>
    simp only [receive]
    split <;> rfl
  | beginGroup => rfl
  | endGroup => rfl

theorem foldl_receive_written (ps : List (Piece Token)) (s : Session) :
    (ps.foldl (receive language preferences) s).written = ps.reverse ++ s.written := by
  induction ps generalizing s with
  | nil => rfl
  | cons p ps ih => simp [ih, receive_written]

/-- A lexeme that is not empty finds its place behind the text before it. -/
theorem place_eq {s : Session} {behind : List Char} {l : Lexeme} (hs : s.position = .after behind)
    (hl : l.text ≠ []) (hsize : (behind ++ l.text).length ≤ sourceBound) :
    s.place l = .ok (l.placed behind) := by
  have hempty : l.text.isEmpty = false := by simpa using hl
  unfold place
  rw [hs, Position.advanceText_after behind l.text hsize]
  simp only [bind, Except.bind, hempty, Bool.false_eq_true, if_false, Span.between_after]
  rfl

theorem feed_token {s : Session} {behind : List Char} {l : Lexeme} (hs : s.position = .after behind)
    (hl : l.text ≠ []) (hsize : (behind ++ l.text).length ≤ sourceBound) :
    s.feed language preferences (.token l) =
      .ok (s.receive language preferences (.token (l.placed behind))) := by
  simp only [feed, place_eq hs hl hsize]
  rfl

/-- Feeding a session is receiving the pieces in their places, while there is
room for positions. -/
theorem foldlM_feed {ps : List (Piece Lexeme)} {s : Session} {behind : List Char}
    (hs : s.position = .after behind) (hfull : ∀ l, .token l ∈ ps → l.text ≠ [])
    (hsize : (behind ++ textOf ps).length ≤ sourceBound) :
    ps.foldlM (feed language preferences) s =
      .ok ((placeFrom behind ps).foldl (receive language preferences) s) := by
  induction ps generalizing s behind with
  | nil => rfl
  | cons p ps ih =>
    have hfull' : ∀ l, .token l ∈ ps → l.text ≠ [] := fun l hl => hfull l (List.mem_cons_of_mem _ hl)
    rw [List.foldlM_cons]
    cases p with
    | token l =>
      rw [textOf_token, ← List.append_assoc] at hsize
      have hsize' : (behind ++ l.text).length ≤ sourceBound := by
        rw [List.length_append] at hsize; omega
      rw [feed_token language preferences hs (hfull l List.mem_cons_self) hsize']
      exact ih (receive_token_position language preferences s _) hfull' hsize
    | beginGroup => exact ih (s := s.put .beginGroup) hs hfull' hsize
    | endGroup => exact ih (s := s.put .endGroup) hs hfull' hsize

/-- A lexeme that finds a place finds it behind the text before it. -/
theorem place_eq_ok {s : Session} {behind : List Char} {l : Lexeme} {t : Token}
    (hs : s.position = .after behind) (h : s.place l = .ok t) : t = l.placed behind := by
  unfold place at h
  rw [hs] at h
  obtain ⟨stop, hstop, h⟩ := bind_eq_ok h
  rw [Position.advanceText_eq_ok hstop] at h
  split at h
  · cases h
  · rw [Span.between_after] at h
    cases h
    rfl

/-- Pieces that a session can be fed are received in their places. -/
theorem foldlM_feed_eq_ok {ps : List (Piece Lexeme)} {s s' : Session} {behind : List Char}
    (hs : s.position = .after behind) (h : ps.foldlM (feed language preferences) s = .ok s') :
    s' = (placeFrom behind ps).foldl (receive language preferences) s := by
  induction ps generalizing s behind with
  | nil =>
    cases h
    rfl
  | cons p ps ih =>
    rw [List.foldlM_cons] at h
    cases p with
    | token l =>
      obtain ⟨fed, hfeed, h⟩ := bind_eq_ok h
      obtain ⟨t, ht, hfeed⟩ := bind_eq_ok hfeed
      obtain rfl : t = l.placed behind := place_eq_ok hs ht
      cases hfeed
      exact ih (receive_token_position language preferences s _) h
    | beginGroup => exact ih (s := s.put .beginGroup) hs h
    | endGroup => exact ih (s := s.put .endGroup) hs h

theorem closeOpen_written (s : Session) (mode : Mode) :
    (s.closeOpen language preferences mode).written = mode.closing.reverse ++ s.written := by
  cases mode <;> rfl

/-- The session at the end of a scan. -/
def final (keepMetrics : Bool) (source : List Char) (logging : Logging) : Session :=
  let logging := logging.debug "Scan started" none
    [("scanner", language.name), ("bytes", toString (Text.byteLength source))]
  let first : Session := { logging, metrics := if keepMetrics then some {} else none }
  ((placeFrom [] (language.read source).pieces).foldl (receive language preferences) first).closeOpen
    language preferences (language.read source).mode

variable {language} {source : List Char}

theorem stream_final (keepMetrics : Bool) (logging : Logging) :
    (final language preferences keepMetrics source logging).result.stream =
      language.stream source := by
  simp only [result, final, closeOpen_written, foldl_receive_written, Language.stream,
    Language.events_eq, placeFrom_append, placeFrom_closing]
  simp

/-- A scan comes to its end: no contract is broken and the lexer does not
stop. -/
theorem scan_eq (keepMetrics : Bool) (logging : Logging) (hsize : source.length ≤ sourceBound) :
    scan language preferences keepMetrics source logging =
      let s := final language preferences keepMetrics source logging
      .ok (.ok s.result, s.logging.success .scanDone "Tokenization completed"
        [("scanner", language.name), ("tokens", toString s.tokens),
         ("error_tokens", toString s.errors)]) := by
  have hpieces : ∀ p, p ∈ (language.read source).pieces → p ∈ language.events source := by
    intro p hp
    rw [Language.events_eq]
    exact List.mem_append_left _ hp
  have htext := language.textOf_pieces_read source
  have hfeed (s : Session) (hs : s.position = .start) :
      (language.read source).pieces.foldlM (feed language preferences) s =
        .ok ((placeFrom [] (language.read source).pieces).foldl (receive language preferences) s) :=
    foldlM_feed language preferences (hs.trans Position.after_nil.symm)
      (fun l hl => language.full_events source l (hpieces _ hl)) (by simpa [htext] using hsize)
  unfold scan
  simp only [language.rest_read, List.isEmpty_nil, if_true]
  rw [hfeed _ rfl]
  rfl

/-- What a scan does that comes to its end, whatever the size of the source. -/
theorem scan_eq_ok {keepMetrics : Bool} {logging logging' : Logging}
    {outcome : Except LexerFault Scan}
    (h : scan language preferences keepMetrics source logging = .ok (outcome, logging')) :
    let s := final language preferences keepMetrics source logging
    outcome = .ok s.result ∧ logging' = s.logging.success .scanDone "Tokenization completed"
      [("scanner", language.name), ("tokens", toString s.tokens),
       ("error_tokens", toString s.errors)] := by
  unfold scan at h
  simp only [language.rest_read, List.isEmpty_nil, if_true] at h
  obtain ⟨s, hfed, h⟩ := bind_eq_ok h
  rw [foldlM_feed_eq_ok language preferences Position.after_nil.symm hfed] at h
  cases h
  exact ⟨rfl, rfl⟩

end Session

/-- A source of at most `sourceBound` characters becomes its stream. -/
theorem tokenize_eq {language : Language} {source : List Char} (hsize : source.length ≤ sourceBound) :
    tokenize language source = .ok (.ok (language.stream source)) := by
  unfold tokenize
  rw [Session.scan_eq {} false .off hsize]
  show Except.ok (Except.ok (Session.final language {} false source .off).result.stream) = _
  rw [Session.stream_final]

/-- A scan that comes to its end yields that stream, whatever the size of the
source. -/
theorem tokenize_eq_ok {language : Language} {source : List Char} {stream : TokenStream}
    (h : tokenize language source = .ok (.ok stream)) : stream = language.stream source := by
  unfold tokenize at h
  obtain ⟨⟨outcome, logging⟩, hscan, h⟩ := bind_eq_ok h
  obtain ⟨rfl, -⟩ := Session.scan_eq_ok {} hscan
  cases h
  exact Session.stream_final {} false .off

end Highlight1C
