import Highlight1C.Proofs.Validity

/-!
# What preferences change

Preferences decide whether a scan keeps figures and what it logs, and nothing
else. The figures that a session keeps are those of what it has written
(`foldl_receive_metrics`), so at the end they are the figures of the stream
(`metrics_final`), which depends on the source alone. `highlightSource_eq_ok`
says all that highlighting does, if it comes to its end; that it does for
sources of at most 2³² − 2 characters is `highlightSource_eq`.

So neither preferences nor logging change the tokens and the figures of a
source (`highlightSource_preferences`).
-/

namespace Highlight1C

/-! ## Figures kept on the way -/

namespace Session

variable (language : Language) (preferences : ScannerPreferences)

@[simp] theorem put_metrics (s : Session) (p : Piece Token) :
    (s.put p).metrics = s.metrics.map (·.add p) := rfl

theorem noteError_metrics (s : Session) (t : Token) :
    (s.noteError language preferences t).metrics = s.metrics := rfl

theorem receive_metrics (s : Session) (p : Piece Token) :
    (s.receive language preferences p).metrics = s.metrics.map (·.add p) := by
  cases p with
  | token t =>
    simp only [receive]
    split
    · rw [noteError_metrics]
      rfl
    · rfl
  | beginGroup => rfl
  | endGroup => rfl

/-- What a session keeps is gathered from the pieces that it receives, whatever
it logs about them. -/
theorem foldl_receive_metrics (ps : List (Piece Token)) (s : Session) :
    (ps.foldl (receive language preferences) s).metrics = s.metrics.map (ps.foldl Metrics.add) := by
  induction ps generalizing s with
  | nil =>
    show s.metrics = s.metrics.map id
    rw [Option.map_id_apply]
  | cons p ps ih =>
    rw [List.foldl_cons, ih, receive_metrics, Option.map_map]
    rfl

theorem closeOpen_metrics (s : Session) (mode : Mode) :
    (s.closeOpen language preferences mode).metrics =
      s.metrics.map (mode.closing.foldl Metrics.add) := by
  cases mode with
  | initial =>
    show s.metrics = s.metrics.map id
    rw [Option.map_id_apply]
  | inString => rfl

/-- The figures at the end of a scan, if they are kept, are those of the stream. -/
theorem metrics_final (keepMetrics : Bool) (source : List Char) (logging : Logging) :
    (final language preferences keepMetrics source logging).metrics =
      if keepMetrics then some (.ofStream (language.stream source)) else none := by
  have hpieces := language.pieces_stream source
  simp only [final, closeOpen_metrics, foldl_receive_metrics, Option.map_map]
  cases keepMetrics with
  | false => rfl
  | true =>
    simp only [if_true, Option.map_some, Metrics.ofStream, hpieces, List.foldl_append,
      Function.comp_apply]

end Session

/-! ## Highlighting -/

/-- A source with its stream, and with its figures if the preferences want them
kept. -/
def Highlight.ofSource (language : Language) (source : List Char)
    (preferences : ScannerPreferences) : Highlight where
  language := language
  tokens := language.stream source
  metrics := if preferences.collectMetrics then some (.ofStream (language.stream source)) else none
  info := none

/-- Figures that were kept are those that are counted afterwards. -/
theorem Highlight.metricsOrCount_ofSource (language : Language) (source : List Char)
    (preferences : ScannerPreferences) :
    (ofSource language source preferences).metricsOrCount = .ofStream (language.stream source) := by
  simp only [ofSource, metricsOrCount]
  split <;> rfl

/-- What a scan has logged when its stream has been checked, and before it is
warned about characters that no rule recognised. -/
def loggingOfScan (language : Language) (source : List Char) (preferences : ScannerPreferences)
    (logging : Logging) : Logging :=
  let s := Session.final language preferences preferences.collectMetrics source logging
  let scanned := s.logging.success .scanDone "Tokenization completed"
    [("scanner", language.name), ("tokens", toString s.tokens), ("error_tokens", toString s.errors)]
  scanned.success .streamValidated "Token stream validated"
    [("scanner", language.name), ("tokens", toString (language.stream source).length)]

/-- All that highlighting does that comes to its end, whatever the size of the
source. -/
theorem highlightSource_eq_ok {language : Language} {source : List Char}
    {preferences : ScannerPreferences} {logging logging' : Logging}
    {outcome : Except HighlightError Highlight}
    (h : highlightSource language source preferences logging = .ok (outcome, logging')) :
    outcome = .ok (.ofSource language source preferences) ∧
      logging' = reportErrors language (language.stream source)
        (loggingOfScan language source preferences logging) := by
  unfold highlightSource at h
  obtain ⟨⟨scanOutcome, scanLogging⟩, hscan, h⟩ := bind_eq_ok h
  obtain ⟨rfl, rfl⟩ := Session.scan_eq_ok preferences hscan
  have hstream : (Session.final language preferences preferences.collectMetrics source
      logging).result.stream = language.stream source :=
    Session.stream_final preferences preferences.collectMetrics logging
  have hmetrics := Session.metrics_final language preferences preferences.collectMetrics source
    logging
  simp only [bind, Except.bind, checkStream, hstream, validate_stream] at h
  cases h
  refine ⟨?_, rfl⟩
  rw [Highlight.ofSource, ← hmetrics]
  rfl

/-- Neither preferences nor logging change what is made of a source of at most
2³² − 2 characters. Whatever is kept and logged on the way, and wherever the log
goes, highlighting yields the same tokens and the same figures. -/
theorem highlightSource_preferences (language : Language) (source : List Char)
    (hsize : source.length ≤ sourceBound) (preferences preferences' : ScannerPreferences)
    (logging logging' : Logging) :
    ∃ highlight highlight' after after',
      highlightSource language source preferences logging = .ok (.ok highlight, after) ∧
      highlightSource language source preferences' logging' = .ok (.ok highlight', after') ∧
      highlight.tokens = highlight'.tokens ∧
      highlight.metricsOrCount = highlight'.metricsOrCount := by
  obtain ⟨highlight, after, hrun, -⟩ := highlightSource_eq hsize preferences logging
  obtain ⟨highlight', after', hrun', -⟩ := highlightSource_eq hsize preferences' logging'
  obtain rfl := Except.ok.inj (highlightSource_eq_ok hrun).1
  obtain rfl := Except.ok.inj (highlightSource_eq_ok hrun').1
  refine ⟨_, _, after, after', hrun, hrun', rfl, ?_⟩
  rw [Highlight.metricsOrCount_ofSource, Highlight.metricsOrCount_ofSource]

/-- A query with a character that no rule recognises and a string left open,
with everything kept and logged and with nothing. -/
theorem highlightSource_preferences_open_string :
    ['§', '\x27', 'я'].length ≤ sourceBound ∧
    ∃ highlight highlight' after after',
      highlightSource .query ['§', '\x27', 'я'] ⟨true, true, true⟩
          { clock := ⟨"", ""⟩, active := some ⟨⟨.memory, .debug⟩, .empty⟩,
            context := some ⟨"a.sql", 1⟩ } = .ok (.ok highlight, after) ∧
      highlightSource .query ['§', '\x27', 'я'] ⟨false, false, false⟩ .off =
        .ok (.ok highlight', after') ∧
      highlight.tokens = highlight'.tokens ∧
      highlight.metricsOrCount = highlight'.metricsOrCount := by
  have hsize : ['§', '\x27', 'я'].length ≤ sourceBound := by decide
  exact ⟨hsize, highlightSource_preferences .query _ hsize _ _ _ _⟩

end Highlight1C
