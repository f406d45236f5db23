import Highlight1C.Proofs.Preferences
import Mathlib.Data.List.Induction

/-!
# The log of a scan

`scanLog` lists what is posted while a source is highlighted, as it can be told
from the stream in the end: the start, the characters that no rule recognised, up
to a limit, the string that is left open, the end with its counts, the check and
the warning. A session counts and posts on the way; `Session.Tracks` says that
this comes to the same for the pieces received so far, and receiving one more
piece keeps it so (`Tracks.receive`). So highlighting posts the scan log and
nothing else (`highlightSource_postAll`), and a memory that keeps all levels has
got its events (`highlightSource_log`).
-/

namespace Highlight1C

open Log (Event Collector)

/-! ## Postings -/

namespace Posting

/-- A debugging note. -/
def note (message : String) (span : Option Span) (values : List (String × String)) : Posting :=
  ⟨false, { Event.debug message with span }, values⟩

/-- The news that something succeeded. -/
def news (code : Log.Code) (message : String) (values : List (String × String)) : Posting :=
  ⟨false, Event.success code message, values⟩

/-- A warning with a code. -/
def caution (code : Log.Code) (message : String) (span : Option Span)
    (values : List (String × String)) : Posting :=
  ⟨true, { Event.codedWarning code message with span }, values⟩

/-- A failure. -/
def failure (code : Log.Code) (message : String) (span : Option Span)
    (values : List (String × String)) : Posting :=
  ⟨true, { Event.error code message with span }, values⟩

end Posting

namespace Logging

variable {l : Logging}

@[simp] theorem postAll_nil (l : Logging) : l.postAll [] = l := rfl

theorem debug_eq_postAll (l : Logging) (message : String) (span : Option Span)
    (values : List (String × String)) :
    l.debug message span values = l.postAll [.note message span values] :=
  l.debug_eq_post message span values

theorem success_eq_postAll (l : Logging) (code : Log.Code) (message : String)
    (values : List (String × String)) :
    l.success code message values = l.postAll [.news code message values] := rfl

theorem error_eq_postAll (l : Logging) (code : Log.Code) (message : String)
    (span : Option Span) (values : List (String × String)) :
    l.error code message span values = l.postAll [.failure code message span values] := rfl

/-- Posting changes nothing that an event is dressed with. -/
theorem dress_post (l : Logging) (collect : Bool) (e : Event) (values : List (String × String)) :
    (l.post collect e values).dress = l.dress := by
  unfold post
  split
  · rfl
  · rfl

/-- The event of a posting, as it is logged. -/
def dressed (l : Logging) (p : Posting) : Event :=
  l.dress p.event p.values

/-- A memory that keeps all levels gets the events of all postings, in order. -/
theorem events_postAll {c : Collector} (hactive : l.active = some ⟨⟨.memory, .debug⟩, c⟩)
    (postings : List Posting) :
    (l.postAll postings).output.events = l.output.events ++ postings.map l.dressed := by
  induction postings generalizing l c with
  | nil => simp
  | cons p ps ih =>
    have hpost : ∃ c', (l.post p.collect p.event p.values).active =
        some ⟨⟨.memory, .debug⟩, c'⟩ := by
      simp only [post, hactive]
      exact ⟨_, rfl⟩
    have hkept : (l.post p.collect p.event p.values).output.events =
        l.output.events ++ [l.dressed p] := by
      simp only [post, hactive, Log.Service.log, Log.Service.admits, Log.Level.admits_debug,
        if_true, Log.Sink.send, Log.Output.events, List.reverse_cons]
      rfl
    have hdressed : (l.post p.collect p.event p.values).dressed = l.dressed := by
      funext q
      rw [dressed, dressed, dress_post]
    obtain ⟨c', hactive'⟩ := hpost
    rw [postAll, List.foldl_cons, ← postAll, ih hactive', hkept, hdressed, List.map_cons,
      List.append_assoc, List.singleton_append]

end Logging

/-! ## What a scan posts -/

section ScanLog

variable (language : Language)

/-- The note on a character that no rule recognised. -/
def characterNote (t : Token) : Posting :=
  .note "Unrecognized character" (some t.span)
    [("code", Log.Code.unrecognizedCharacter.text), ("scanner", language.name),
     ("char", Text.escapeBare t.text)]

/-- The note that no more of them are logged. -/
def limitNote (limit : Nat) : Posting :=
  .note "Further unrecognized characters not logged" none
    [("scanner", language.name), ("limit", toString limit)]

/-- The notes on such characters: one on each up to the limit, and one more if
there are more. -/
def errorNotes (limit : Nat) (errors : List Token) : List Posting :=
  (errors.take limit).map (characterNote language) ++
    if limit < errors.length then [limitNote language limit] else []

/-- The warning about them, if there are any, which points at the first. -/
def errorWarning : List Token → List Posting
  | [] => []
  | first :: others =>
    [.caution .unrecognizedCharacter "Unrecognized characters in source" (some first.span)
      [("scanner", language.name), ("first", Text.escapeBare first.text),
       ("count", toString (others.length + 1))]]

/-- The note on a scan that begins. -/
def startNote (source : List Char) : Posting :=
  .note "Scan started" none
    [("scanner", language.name), ("bytes", toString (Text.byteLength source))]

/-- The note on a string that is left open where the source ends. -/
def closeNote (offset : Nat) : Posting :=
  .note "String closed at end of input" none
    [("code", Log.Code.unterminatedString.text), ("scanner", language.name),
     ("offset", toString offset)]

/-- All that is posted while a source is highlighted, when a scan comes to its end
in this mode and has written this stream. -/
def scanLog (limit : Nat) (preferences : ScannerPreferences) (source : List Char) (mode : Mode)
    (stream : TokenStream) : List Posting :=
  [startNote language source] ++
  (if preferences.logErrorTokens then errorNotes language limit stream.errors else []) ++
  (if preferences.logImplicitClose ∧ mode = .inString then
    [closeNote language (Text.byteLength source)] else []) ++
  [.news .scanDone "Tokenization completed"
    [("scanner", language.name), ("tokens", toString stream.length),
     ("error_tokens", toString stream.errors.length)],
   .news .streamValidated "Token stream validated"
    [("scanner", language.name), ("tokens", toString stream.length)]] ++
  errorWarning language stream.errors

/-- The notes with one more character: it is noted itself up to the limit, the
limit is noted once, and then there is nothing to add. -/
theorem errorNotes_concat (limit : Nat) (errors : List Token) (t : Token) :
    errorNotes language limit (errors ++ [t]) =
      errorNotes language limit errors ++
        if errors.length + 1 ≤ limit then [characterNote language t]
        else if errors.length + 1 = limit + 1 then [limitNote language limit] else [] := by
  unfold errorNotes
  rw [List.length_append, List.length_singleton, List.take_append]
  rcases Nat.lt_trichotomy errors.length limit with hlt | heq | hgt
  · have htake : ([t] : List Token).take (limit - errors.length) = [t] :=
      List.take_of_length_le (by rw [List.length_singleton]; omega)
    rw [if_neg (by omega : ¬ limit < errors.length + 1), if_neg (by omega : ¬ limit < errors.length),
      if_pos (by omega), htake]
    simp
  · rw [if_pos (by omega : limit < errors.length + 1), if_neg (by omega : ¬ limit < errors.length),
      if_neg (by omega), if_pos (by omega), heq, Nat.sub_self]
    simp
  · have htake : ([t] : List Token).take (limit - errors.length) = [] := by
      rw [Nat.sub_eq_zero_of_le (Nat.le_of_lt hgt), List.take_zero]
    rw [if_pos (by omega : limit < errors.length + 1), if_pos hgt, if_neg (by omega),
      if_neg (by omega), htake]
    simp

end ScanLog

/-! ## Sessions -/

namespace TokenStream

@[simp] theorem length_push_token (s : TokenStream) (t : Token) :
    (s.push (.token t)).length = s.length + 1 := by
  rw [length, tokens_push_token, List.length_append, List.length_singleton, length]

theorem errors_push_token (s : TokenStream) (t : Token) :
    (s.push (.token t)).errors = s.errors ++ if t.kind = .error then [t] else [] := by
  have hone : [t].filter (·.kind == .error) = if t.kind = .error then [t] else [] := by
    by_cases hkind : t.kind = .error
    · simp [hkind]
    · simp [hkind]
  rw [errors, tokens_push_token, List.filter_append, hone, errors]

/-- A marker at the end of a stream adds no token. -/
theorem tokens_push_marker (s : TokenStream) {p : Piece Token} (hp : p.token? = none) :
    (s.push p).tokens = s.tokens := by
  simp [push, tokens, hp]

end TokenStream

namespace Session

variable (language : Language) (preferences : ScannerPreferences)

/-- What a session has counted and posted, when it has received the pieces of a
stream. -/
structure Tracks (logging : Logging) (stream : TokenStream) (s : Session) : Prop where
  tokens : s.tokens = stream.length
  errors : s.errors = stream.errors.length
  logging : s.logging = logging.postAll
    (if preferences.logErrorTokens then
      errorNotes language Limits.current.maxErrorTokensLogged stream.errors else [])

/-- What is posted when one more character is not recognised. -/
theorem noteError_logging (s : Session) (t : Token) :
    (s.noteError language preferences t).logging = s.logging.postAll
      (if preferences.logErrorTokens then
        if s.errors + 1 ≤ Limits.current.maxErrorTokensLogged then [characterNote language t]
        else if s.errors + 1 = Limits.current.maxErrorTokensLogged + 1 then
          [limitNote language Limits.current.maxErrorTokensLogged] else []
       else []) := by
  simp only [noteError, Logging.debug_eq_postAll]
  cases preferences.logErrorTokens with
  | false => rfl
  | true =>
    simp only [Bool.not_true, Bool.false_eq_true, if_false, if_true]
    split
    · rfl
    split
    · rfl
    · rfl

variable {language preferences}

theorem Tracks.marker {logging : Logging} {stream : TokenStream} {s : Session}
    (h : Tracks language preferences logging stream s) {p : Piece Token} (hp : p.token? = none) :
    Tracks language preferences logging (stream.push p) (s.put p) := by
  have htokens := stream.tokens_push_marker hp
  refine ⟨?_, ?_, ?_⟩
  · rw [TokenStream.length, htokens]
    exact h.tokens
  · rw [TokenStream.errors, htokens]
    exact h.errors
  · rw [TokenStream.errors, htokens]
    exact h.logging

/-- A session that receives one more piece counts it, and posts what is to be
posted about it. -/
theorem Tracks.receive {logging : Logging} {stream : TokenStream} {s : Session}
    (h : Tracks language preferences logging stream s) (p : Piece Token) :
    Tracks language preferences logging (stream.push p) (s.receive language preferences p) := by
  cases p with
  | beginGroup => exact h.marker rfl
  | endGroup => exact h.marker rfl
  | token t =>
    have htokens : s.tokens + 1 = (stream.push (.token t)).length := by
      rw [h.tokens, TokenStream.length_push_token]
    have herrors := stream.errors_push_token t
    simp only [Session.receive]
    split
    · next hkind =>
      rw [if_pos hkind] at herrors
      refine ⟨htokens, ?_, ?_⟩
      · rw [herrors, List.length_append, List.length_singleton, ← h.errors]
        rfl
      · rw [noteError_logging, herrors, errorNotes_concat, ← h.errors]
        show s.logging.postAll _ = _
        rw [h.logging, ← Logging.postAll_append]
        cases preferences.logErrorTokens with
        | false => rfl
        | true => rfl
    · next hkind =>
      rw [if_neg hkind, List.append_nil] at herrors
      refine ⟨htokens, ?_, ?_⟩
      · rw [herrors]
        exact h.errors
      · rw [herrors]
        exact h.logging

/-- A session that has received pieces from its beginning on keeps track of
them. -/
theorem tracks_foldl_receive {first : Session} (htokens : first.tokens = 0)
    (herrors : first.errors = 0) (ps : List (Piece Token)) :
    Tracks language preferences first.logging ⟨ps⟩ (ps.foldl (receive language preferences) first) := by
  induction ps using List.reverseRecOn with
  | nil =>
    refine ⟨htokens, herrors, ?_⟩
    have hnone : errorNotes language Limits.current.maxErrorTokensLogged
        (TokenStream.errors ⟨[]⟩) = [] := rfl
    rw [hnone, ite_self]
    rfl
  | append_singleton ps p ih =>
    rw [List.foldl_append]
    exact ih.receive p

variable (language preferences)

/-- A session stands where the text of the pieces that it has received ends. -/
theorem position_foldl_receive {s : Session} {behind : List Char} (hs : s.position = .after behind)
    (ps : List (Piece Lexeme)) :
    ((placeFrom behind ps).foldl (receive language preferences) s).position =
      .after (behind ++ textOf ps) := by
  induction ps generalizing s behind with
  | nil => simpa [placeFrom] using hs
  | cons p ps ih =>
    cases p with
    | token l =>
      rw [placeFrom, List.foldl_cons, textOf_token, ← List.append_assoc]
      exact ih (receive_token_position language preferences s _)
    | beginGroup => exact ih (s := s.put .beginGroup) hs
    | endGroup => exact ih (s := s.put .endGroup) hs

/-- What is posted when the source ends. -/
theorem closeOpen_logging (s : Session) (mode : Mode) :
    (s.closeOpen language preferences mode).logging = s.logging.postAll
      (if preferences.logImplicitClose ∧ mode = .inString then
        [closeNote language s.position.offset] else []) := by
  cases mode with
  | initial => simp [closeOpen]
  | inString =>
    simp only [closeOpen, put, Logging.debug_eq_postAll, and_true]
    split
    · rfl
    · rfl

theorem closeOpen_tokens (s : Session) (mode : Mode) :
    (s.closeOpen language preferences mode).tokens = s.tokens := by
  cases mode <;> rfl

theorem closeOpen_errors (s : Session) (mode : Mode) :
    (s.closeOpen language preferences mode).errors = s.errors := by
  cases mode <;> rfl

/-- The marker that closes the last string adds no token to a stream. -/
theorem tokens_stream (source : List Char) :
    (language.stream source).tokens =
      TokenStream.tokens ⟨placeFrom [] (language.read source).pieces⟩ := by
  rw [TokenStream.tokens, language.pieces_stream]
  cases (language.read source).mode with
  | initial =>
    rw [Mode.closing, List.append_nil]
    rfl
  | inString => exact TokenStream.tokens_push_marker ⟨placeFrom [] (language.read source).pieces⟩ rfl

/-- At the end of a scan, the session has counted the tokens of the stream, and
has posted the start, the characters that were not recognised, and the string that
was left open. -/
theorem tracks_final (keepMetrics : Bool) (source : List Char) (logging : Logging) :
    let s := final language preferences keepMetrics source logging
    s.tokens = (language.stream source).length ∧
      s.errors = (language.stream source).errors.length ∧
      s.logging = logging.postAll
        ([startNote language source] ++
          (if preferences.logErrorTokens then
            errorNotes language Limits.current.maxErrorTokensLogged (language.stream source).errors
           else []) ++
          (if preferences.logImplicitClose ∧ (language.read source).mode = .inString then
            [closeNote language (Text.byteLength source)] else [])) := by
  intro s
  let pieces := placeFrom [] (language.read source).pieces
  let first : Session :=
    { logging := logging.postAll [startNote language source]
      metrics := if keepMetrics then some {} else none }
  have hs : s = (pieces.foldl (receive language preferences) first).closeOpen language preferences
      (language.read source).mode := by
    simp only [s, final, Logging.debug_eq_postAll]
    rfl
  have htracks : Tracks language preferences first.logging ⟨pieces⟩
      (pieces.foldl (receive language preferences) first) := tracks_foldl_receive rfl rfl pieces
  have hfirst : first.position = .after [] := Position.after_nil.symm
  have hposition := position_foldl_receive language preferences hfirst (language.read source).pieces
  rw [List.nil_append, language.textOf_pieces_read] at hposition
  have hoffset : (pieces.foldl (receive language preferences) first).position.offset =
      Text.byteLength source := congrArg Position.offset hposition
  rw [hs, closeOpen_tokens, closeOpen_errors, closeOpen_logging, hoffset, TokenStream.length,
    TokenStream.errors, tokens_stream]
  refine ⟨htracks.tokens, htracks.errors, ?_⟩
  rw [htracks.logging, ← Logging.postAll_append, ← Logging.postAll_append, List.append_assoc]
  rfl

end Session

/-! ## Highlighting -/

theorem reportErrors_eq_postAll (language : Language) (stream : TokenStream) (logging : Logging) :
    reportErrors language stream logging = logging.postAll (errorWarning language stream.errors) := by
  unfold reportErrors
  split
  · next hnone =>
    rw [hnone]
    rfl
  · next first others herrors =>
    rw [herrors]
    rfl

/-- Highlighting that comes to its end has posted the scan log, and nothing
else. -/
theorem highlightSource_postAll {language : Language} {source : List Char}
    {preferences : ScannerPreferences} {logging logging' : Logging}
    {outcome : Except HighlightError Highlight}
    (h : highlightSource language source preferences logging = .ok (outcome, logging')) :
    logging' = logging.postAll (scanLog language Limits.current.maxErrorTokensLogged preferences
      source (language.read source).mode (language.stream source)) := by
  obtain ⟨-, rfl⟩ := highlightSource_eq_ok h
  obtain ⟨htokens, herrors, hlogging⟩ := Session.tracks_final language preferences
    preferences.collectMetrics source logging
  simp only [loggingOfScan, reportErrors_eq_postAll, Logging.success_eq_postAll, htokens, herrors,
    hlogging, ← Logging.postAll_append, scanLog, List.append_assoc, List.cons_append,
    List.nil_append]

/-- The log of a scan is exact. A source of at most 2³² − 2 characters is
highlighted while a memory keeps all levels. Then the memory has got the events of
the scan log and no others, dressed as all events are then. So it has got, in this
order,

* the start, with the bytes of the source;
* if characters that no rule recognised are to be logged, one note on each of the
  first 64 of them with its span and its text, and one more if there are others;
* a note on the string that is left open, if that is to be logged and the scan has
  come to the end of the source within a string;
* the end, with the number of tokens and of those that were not recognised;
* the check, with the number of tokens;
* if there are tokens that were not recognised, a warning with their number and the
  span of the first. -/
theorem highlightSource_log (language : Language) (source : List Char)
    (hsize : source.length ≤ sourceBound) (preferences : ScannerPreferences) {logging : Logging}
    {c : Collector} (hactive : logging.active = some ⟨⟨.memory, .debug⟩, c⟩) :
    ∃ highlight logging',
      highlightSource language source preferences logging = .ok (.ok highlight, logging') ∧
      logging'.output.events = logging.output.events ++
        (scanLog language 64 preferences source (language.read source).mode
          highlight.tokens).map logging.dressed ∧
      ∃ written state, language.lexer.Reaches source written state [] ∧
        language.lexer.mode state = (language.read source).mode := by
  obtain ⟨highlight, logging', hrun, htokens, -⟩ := highlightSource_eq hsize preferences logging
  refine ⟨highlight, logging', hrun, ?_, language.exists_reaches_nil source⟩
  rw [highlightSource_postAll hrun, Logging.events_postAll hactive, htokens]
  rfl

/-- A memory that keeps all levels, while a file is worked on. -/
def Logging.attentive : Logging where
  clock := ⟨"", ""⟩
  active := some ⟨⟨.memory, .debug⟩, .empty⟩
  context := some ⟨"a.sql", 1⟩

/-- A query with 65 characters that no rule recognises and a string that is left
open: the start, 64 characters and the note that there are more, the open string,
the end, the check and the warning. -/
theorem highlightSource_log_many_errors :
    (List.replicate 65 '§' ++ ['\x27']).length ≤ sourceBound ∧
    Logging.attentive.active = some ⟨⟨.memory, .debug⟩, .empty⟩ ∧
    ∃ highlight logging',
      highlightSource .query (List.replicate 65 '§' ++ ['\x27']) ⟨true, true, true⟩ .attentive =
        .ok (.ok highlight, logging') ∧
      logging'.output.events.length = 70 := by
  have hsize : (List.replicate 65 '§' ++ ['\x27']).length ≤ sourceBound := by decide
  have hactive : Logging.attentive.active = some ⟨⟨.memory, .debug⟩, .empty⟩ := rfl
  obtain ⟨highlight, logging', hrun, hevents, -⟩ := highlightSource_log .query
    (List.replicate 65 '§' ++ ['\x27']) hsize ⟨true, true, true⟩ hactive
  obtain rfl := Except.ok.inj (highlightSource_eq_ok hrun).1
  refine ⟨hsize, hactive, _, logging', hrun, ?_⟩
  rw [hevents, List.length_append, List.length_map]
  decide +kernel

end Highlight1C
