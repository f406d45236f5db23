import Highlight1C.Proofs.Summary
import Highlight1C.Proofs.Trace

/-!
# The log of a file

While a file is highlighted, each layer logs for itself: the choice of the
language, the reading of the file, the scan, the check, and the end. Of these
events the reports are the errors and the news of the steps, which are known by
their level and their code (`Log.Event.mark`). `Logging.Reports marks l l'` says
that from `l` to `l'` just these reports were logged, whatever else was; it
composes along the steps. So the reports on a file tell what comes of it
(`highlightFile_reports`): one error with the code of the failure, or the steps up
to the end (`Outcome.marks`).

`highlightFile_log` says so of the events that a memory gets which keeps all
levels.
-/

namespace Highlight1C

open Log (Event Level Code Collector)

/-! ## Reports -/

/-- The level and the code of an event. -/
def Log.Event.mark (e : Event) : Level × Code :=
  (e.level, e.code)

/-- The codes of the steps that end well: a file, a scan, a check. -/
def stepCodes : List Code := [.fileDone, .scanDone, .streamValidated]

/-- Whether it is an error that an event with this mark reports, or a step. -/
def isReport (mark : Level × Code) : Bool :=
  mark.1 == .error || stepCodes.contains mark.2

namespace Logging

/-- Between the two, these reports have been logged, in this order. -/
def Reports (marks : List (Level × Code)) (l l' : Logging) : Prop :=
  ∃ postings, l' = l.postAll postings ∧ (postings.map (·.event.mark)).filter isReport = marks

variable {l l₁ l₂ : Logging} {marks marks₁ marks₂ : List (Level × Code)}

theorem Reports.trans (h₁ : Reports marks₁ l l₁) (h₂ : Reports marks₂ l₁ l₂) :
    Reports (marks₁ ++ marks₂) l l₂ := by
  obtain ⟨ps, rfl, rfl⟩ := h₁
  obtain ⟨qs, rfl, rfl⟩ := h₂
  refine ⟨ps ++ qs, (l.postAll_append ps qs).symm, ?_⟩
  rw [List.map_append, List.filter_append]

/-- A debugging note is no report. -/
theorem reports_debug (l : Logging) (message : String) (span : Option Span)
    (values : List (String × String)) : Reports [] l (l.debug message span values) :=
  ⟨_, l.debug_eq_postAll message span values, rfl⟩

theorem reports_success {code : Code} (hcode : code ∈ stepCodes) (l : Logging) (message : String)
    (values : List (String × String)) :
    Reports [(.info, code)] l (l.success code message values) := by
  refine ⟨_, l.success_eq_postAll code message values, List.filter_cons_of_pos ?_⟩
  show isReport (.info, code) = true
  rw [isReport, List.contains_iff_mem.mpr hcode, Bool.or_true]

theorem reports_error (l : Logging) (code : Code) (message : String) (span : Option Span)
    (values : List (String × String)) :
    Reports [(.error, code)] l (l.error code message span values) :=
  ⟨_, l.error_eq_postAll code message span values, rfl⟩

theorem mark_dressed (l : Logging) (p : Posting) : (l.dressed p).mark = p.event.mark := by
  rw [Event.mark, dressed, level_dress, code_dress, Event.mark]

/-- A memory that keeps all levels gets the reports, and what else there is. -/
theorem Reports.events {c : Collector} (h : Reports marks l l₁)
    (hactive : l.active = some ⟨⟨.memory, .debug⟩, c⟩) :
    ∃ events, l₁.output.events = l.output.events ++ events ∧
      (events.map Event.mark).filter isReport = marks := by
  obtain ⟨ps, rfl, rfl⟩ := h
  refine ⟨ps.map l.dressed, events_postAll hactive ps, ?_⟩
  have hmarks : (ps.map l.dressed).map Event.mark = ps.map (·.event.mark) := by
    rw [List.map_map]
    exact List.map_congr_left fun p _ => mark_dressed l p
  rw [hmarks]

end Logging

open Logging

/-- A kind of reports can be looked for among the reports. -/
theorem filter_isReport_filter {q : Level × Code → Bool} (hq : ∀ mark, q mark → isReport mark)
    (marks : List (Level × Code)) : (marks.filter isReport).filter q = marks.filter q := by
  rw [List.filter_filter]
  refine List.filter_congr fun mark _ => ?_
  cases hmark : q mark with
  | false => rfl
  | true => rw [hq mark hmark, Bool.and_self]

/-- The errors among events, by the reports. -/
theorem errors_of_reports {events : List Event} {marks : List (Level × Code)}
    (h : (events.map Event.mark).filter isReport = marks) :
    (events.filter Event.isError).map (·.code) =
      (marks.filter (·.1 == .error)).map (·.2) := by
  have hq : ∀ mark : Level × Code, (mark.1 == .error) = true → isReport mark = true := by
    intro mark hmark
    rw [isReport, hmark, Bool.true_or]
  rw [← h, filter_isReport_filter hq, List.filter_map, List.map_map]
  rfl

/-- The steps among events, by the reports. -/
theorem steps_of_reports {events : List Event} {marks : List (Level × Code)}
    (h : (events.map Event.mark).filter isReport = marks) :
    (events.map (·.code)).filter stepCodes.contains =
      (marks.filter fun mark => stepCodes.contains mark.2).map (·.2) := by
  have hq : ∀ mark : Level × Code, stepCodes.contains mark.2 = true → isReport mark = true := by
    intro mark hmark
    rw [isReport, hmark, Bool.or_true]
  rw [← h, filter_isReport_filter hq, List.filter_map, List.filter_map, List.map_map]
  rfl

/-! ## What is reported -/

theorem filter_isReport_eq_nil {postings : List Posting}
    (h : ∀ p ∈ postings, isReport p.event.mark = false) :
    (postings.map (·.event.mark)).filter isReport = [] := by
  rw [List.filter_eq_nil_iff, List.forall_mem_map]
  intro p hp
  rw [h p hp]
  decide

theorem not_isReport_errorNotes (language : Language) (limit : Nat) (errors : List Token) :
    ∀ p ∈ errorNotes language limit errors, isReport p.event.mark = false := by
  intro p hp
  rcases List.mem_append.mp hp with hp | hp
  · obtain ⟨t, -, rfl⟩ := List.mem_map.mp hp
    rfl
  · split at hp
    · rw [List.mem_singleton.mp hp]
      rfl
    · exact absurd hp List.not_mem_nil

theorem not_isReport_errorWarning (language : Language) (errors : List Token) :
    ∀ p ∈ errorWarning language errors, isReport p.event.mark = false := by
  intro p hp
  cases errors with
  | nil => exact absurd hp List.not_mem_nil
  | cons first others =>
    rw [List.mem_singleton.mp hp]
    rfl

/-- The reports on a scan are its end and its check. -/
theorem reports_scanLog (language : Language) (limit : Nat) (preferences : ScannerPreferences)
    (source : List Char) (mode : Mode) (stream : TokenStream) (l : Logging) :
    Reports [(.info, .scanDone), (.info, .streamValidated)] l
      (l.postAll (scanLog language limit preferences source mode stream)) := by
  have hnotes : ((if preferences.logErrorTokens then errorNotes language limit stream.errors
      else []).map (·.event.mark)).filter isReport = [] := by
    split
    · exact filter_isReport_eq_nil (not_isReport_errorNotes language limit stream.errors)
    · rfl
  have hclose : ((if preferences.logImplicitClose ∧ mode = .inString then
      [closeNote language (Text.byteLength source)] else []).map (·.event.mark)).filter isReport =
        [] := by
    split
    · rfl
    · rfl
  have hwarning := filter_isReport_eq_nil (not_isReport_errorWarning language stream.errors)
  refine ⟨_, rfl, ?_⟩
  simp only [scanLog, List.map_append, List.filter_append, hnotes, hclose, hwarning,
    List.append_nil]
  rfl

/-- The reports on reading a file. -/
def SourceFile.marks : Except FileError SourceFile → List (Level × Code)
  | .error e => [(.error, e.code)]
  | .ok _ => [(.info, .fileDone)]

/-- The reports on highlighting a file: what it was read as, its scan and its check,
and its end; or the failure alone. -/
def Outcome.marks : Outcome → List (Level × Code)
  | .error e => [(.error, e.code)]
  | .ok _ =>
    [(.info, .fileDone), (.info, .scanDone), (.info, .streamValidated), (.info, .fileDone)]

theorem SourceFile.load_reports {fs : FileSystem} {path : String} {timed : Bool}
    {logging logging' : Logging} {result : Except FileError SourceFile}
    (h : load fs path timed logging = (result, logging')) :
    Reports (marks result) logging logging' := by
  have hstart := reports_debug logging "Starting file processing" none [("file", path)]
  simp only [load] at h
  split at h
  · cases h
    exact hstart.trans (reports_error ..)
  split at h
  · cases h
    exact hstart.trans (reports_error ..)
  split at h
  · cases h
    exact hstart.trans (reports_error ..)
  · cases h
    have hread : Code.fileDone ∈ stepCodes := List.mem_cons_self
    refine hstart.trans ?_
    split
    · exact (reports_debug ..).trans (reports_success hread _ _ _)
    · exact reports_success hread _ _ _

/-- The reports on a source are those on its scan. -/
theorem highlightSource_reports {language : Language} {source : List Char}
    {preferences : ScannerPreferences} {logging logging' : Logging} {outcome : Outcome}
    (h : highlightSource language source preferences logging = .ok (outcome, logging')) :
    (∃ highlight, outcome = .ok highlight) ∧
      Reports [(.info, .scanDone), (.info, .streamValidated)] logging logging' := by
  refine ⟨⟨_, (highlightSource_eq_ok h).1⟩, ?_⟩
  rw [highlightSource_postAll h]
  exact reports_scanLog ..

/-- The reports on a file tell what comes of it. -/
theorem highlightFile_reports {fs : FileSystem} {path : String} {language : Option Language}
    {preferences : ScannerPreferences} {logging logging' : Logging} {outcome : Outcome}
    (h : highlightFile fs path language preferences logging = .ok (outcome, logging')) :
    Reports (Outcome.marks outcome) logging logging' := by
  unfold highlightFile at h
  split at h
  · cases h
    exact reports_error ..
  next language _ =>
  have hstart := reports_debug logging "Highlighting file" none
    [("file", path), ("language", language.name)]
  simp only [] at h
  split at h
  · next hload =>
    cases h
    exact hstart.trans (SourceFile.load_reports hload)
  next file loaded hload =>
  obtain ⟨⟨inner, scanned⟩, hsource, h⟩ := bind_eq_ok h
  obtain ⟨⟨highlight, rfl⟩, hscan⟩ := highlightSource_reports hsource
  have hdone : Code.fileDone ∈ stepCodes := List.mem_cons_self
  have hnews := reports_success hdone scanned "File highlighted"
    [("file", path), ("language", language.name),
     ("tokens", toString highlight.tokens.length),
     ("duration_ms", scanned.clock.elapsed)]
  cases h
  exact hstart.trans ((SourceFile.load_reports hload).trans (hscan.trans hnews))

/-- Every failure to highlight a file is logged once, and every success step by
step. A file is highlighted while a memory keeps all levels, whatever the file
system has at the path, in a given language or that of the path. If that fails,
the memory has got one error, and its code is that of the failure. If it succeeds,
the memory has got no error, and of the events with the codes `I006`, `I020` and
`I021` just four: the file was read, scanned, checked and highlighted, in this
order. One of these comes about, if the text that is read has at most 2³² − 2
characters, which is so unless the file has grown since it was checked
(`FileSystem.fits_of_length_le`). -/
theorem highlightFile_log (fs : FileSystem) (path : String) (language : Option Language)
    (preferences : ScannerPreferences) {logging : Logging} {c : Collector}
    (hactive : logging.active = some ⟨⟨.memory, .debug⟩, c⟩) :
    (∀ e logging', highlightFile fs path language preferences logging = .ok (.error e, logging') →
      ∃ events, logging'.output.events = logging.output.events ++ events ∧
        (events.filter Event.isError).map (·.code) = [e.code]) ∧
    (∀ highlight logging',
      highlightFile fs path language preferences logging = .ok (.ok highlight, logging') →
      ∃ events, logging'.output.events = logging.output.events ++ events ∧
        events.filter Event.isError = [] ∧
        (events.map (·.code)).filter [Code.fileDone, .scanDone, .streamValidated].contains =
          [.fileDone, .scanDone, .streamValidated, .fileDone]) ∧
    (fs.Fits path → ∃ outcome logging',
      highlightFile fs path language preferences logging = .ok (outcome, logging')) := by
  refine ⟨fun e logging' h => ?_, fun highlight logging' h => ?_,
    fun hfits => exists_highlightFile hfits language preferences logging⟩
  · obtain ⟨events, hevents, hmarks⟩ := (highlightFile_reports h).events hactive
    exact ⟨events, hevents, errors_of_reports hmarks⟩
  · obtain ⟨events, hevents, hmarks⟩ := (highlightFile_reports h).events hactive
    exact ⟨events, hevents, List.map_eq_nil_iff.mp (errors_of_reports hmarks),
      steps_of_reports hmarks⟩

/-- A file that is not there, and one with a character that no rule recognises. -/
theorem highlightFile_log_sample :
    Logging.attentive.active = some ⟨⟨.memory, .debug⟩, .empty⟩ ∧
    FileSystem.sample.Fits "a.1c" ∧
    (∃ logging', highlightFile .sample "c.1c" none {} .attentive =
        .ok (.error (.file (.notFound "c.1c")), logging') ∧
      (logging'.output.events.filter Event.isError).map (·.code) = [.fileNotFound]) ∧
    ∃ highlight logging',
      highlightFile .sample "a.1c" none {} .attentive = .ok (.ok highlight, logging') ∧
      logging'.output.events.filter Event.isError = [] ∧
      (logging'.output.events.map (·.code)).filter
          [Code.fileDone, .scanDone, .streamValidated].contains =
        [.fileDone, .scanDone, .streamValidated, .fileDone] := by
  have hactive : Logging.attentive.active = some ⟨⟨.memory, .debug⟩, .empty⟩ := rfl
  have hnone : Logging.attentive.output.events = [] := rfl
  have hfits := FileSystem.fits_sample "a.1c"
  obtain ⟨hfailed, -, -⟩ := highlightFile_log .sample "c.1c" none {} hactive
  obtain ⟨-, hdone, hends⟩ := highlightFile_log .sample "a.1c" none {} hactive
  refine ⟨hactive, hfits, ?_, ?_⟩
  · obtain ⟨events, hevents, herrors⟩ := hfailed (.file (.notFound "c.1c")) _ rfl
    rw [hnone, List.nil_append] at hevents
    exact ⟨_, rfl, hevents ▸ herrors⟩
  · obtain ⟨outcome, logging', hrun⟩ := hends hfits
    have hok : (highlightFile .sample "a.1c" none {} .attentive).map
        (fun r => Outcome.isFailed r.1) = .ok false := by decide +kernel
    cases outcome with
    | error e =>
      rw [hrun] at hok
      cases hok
    | ok highlight =>
      obtain ⟨events, hevents, herrors, hcodes⟩ := hdone highlight logging' hrun
      rw [hnone, List.nil_append] at hevents
      exact ⟨highlight, logging', hrun, hevents ▸ herrors, hevents ▸ hcodes⟩

end Highlight1C
