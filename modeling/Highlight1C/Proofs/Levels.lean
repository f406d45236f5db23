import Highlight1C.Proofs.Summary

/-!
# The minimum level only filters

A debugging note is not even made when such notes are not logged, all other
events are held back by the service, and what is collected is collected before.
These come to the same: a note that is not made would have been held back
(`Logging.debug_eq_post`), so all logging is posting, and a posting reaches the
collector whatever the minimum level is (`Quieter.post`).

`Logging.Quieter minimum l l'` says that `l` keeps those events of `l'` in memory
that the minimum level lets through, and that all else is the same; times are
left aside (`Log.Event.untimed`). Whatever is asked of the library keeps it so
(`Request.lockstep`), and one request after the other does (`runCalls_lockstep`).
-/

namespace Highlight1C

open Log (Event Level Context Collector)

/-! ## Times aside -/

/-- The name of the value that says how long a piece of work took. -/
def durationKey : String := "duration_ms"

/-- A named value without the time that it may be. -/
def untimed (value : String × String) : String × String :=
  (value.1, if value.1 = durationKey then "" else value.2)

/-- An event without the time in its context. -/
def Log.Event.untimed (e : Event) : Event :=
  { e with context := e.context.map Highlight1C.untimed }

theorem Log.Context.map_untimed_set (key value : String) (c : Context) :
    (c.set key value).map untimed = Context.set key (untimed (key, value)).2 (c.map untimed) := by
  induction c with
  | nil => rfl
  | cons pair rest ih =>
    obtain ⟨k, v⟩ := pair
    simp only [Context.set, List.map_cons, untimed]
    split
    · rfl
    split
    · rfl
    · rw [List.map_cons, ih]
      rfl

theorem Log.Event.untimed_withValue (e : Event) (key value : String) :
    (e.withValue key value).untimed =
      e.untimed.withValue key (Highlight1C.untimed (key, value)).2 := by
  simp only [untimed, withValue, Context.map_untimed_set]

theorem Log.Event.untimed_withValues (e : Event) (values : List (String × String)) :
    (e.withValues values).untimed = e.untimed.withValues (values.map Highlight1C.untimed) := by
  unfold withValues
  induction values generalizing e with
  | nil => rfl
  | cons value values ih =>
    rw [List.foldl_cons, ih, untimed_withValue]
    rfl

namespace Logging

variable {minimum : Level} {l l' : Logging}

/-- Values that differ in times only make events that do. -/
theorem untimed_dress (l : Logging) (e : Event) {values values' : List (String × String)}
    (h : values.map Highlight1C.untimed = values'.map Highlight1C.untimed) :
    (l.dress e values).untimed = (l.dress e values').untimed := by
  have hvalues : (e.withValues values).untimed = (e.withValues values').untimed := by
    rw [Event.untimed_withValues, h, Event.untimed_withValues]
  simp only [dress]
  split
  · split
    · simp only [Event.untimed_withValue, hvalues]
    · exact hvalues
  · exact hvalues

/-! ## Two minimum levels -/

/-- The first keeps those events of the second in memory that a minimum level
lets through, times aside; all else is the same. -/
structure Quieter (minimum : Level) (l l' : Logging) : Prop where
  environment : l.environment = l'.environment
  chosen : l.chosen = l'.chosen
  context : l.context = l'.context
  active : ∃ c, l.active = some ⟨⟨.memory, minimum⟩, c⟩ ∧ l'.active = some ⟨⟨.memory, .debug⟩, c⟩
  kept : l.output.kept.map Event.untimed =
    (l'.output.kept.filter fun e => minimum.admits e.level).map Event.untimed

theorem kept_log (minimum : Level) (clock : Log.Clock) (e : Event) (o : Log.Output) :
    ((⟨.memory, minimum⟩ : Log.Service).log clock e o).kept =
      if minimum.admits e.level then e :: o.kept else o.kept := by
  unfold Log.Service.log
  exact apply_ite Log.Output.kept _ _ _

theorem dress_eq (henvironment : l.environment = l'.environment) (hchosen : l.chosen = l'.chosen)
    (hcontext : l.context = l'.context) (e : Event) (values : List (String × String)) :
    l.dress e values = l'.dress e values := by
  simp only [dress, preferences, henvironment, hchosen, hcontext]
  rfl

/-- Posting an event keeps it so. What is collected must be the same in times,
too. -/
theorem Quieter.post (h : Quieter minimum l l') (collect : Bool) (e : Event)
    {values values' : List (String × String)}
    (hvalues : values.map Highlight1C.untimed = values'.map Highlight1C.untimed)
    (hcollect : collect = true → values = values') :
    Quieter minimum (l.post collect e values) (l'.post collect e values') := by
  obtain ⟨c, hactive, hactive'⟩ := h.active
  have hdress : (l.dress e values).untimed = (l'.dress e values').untimed := by
    rw [dress_eq h.environment h.chosen h.context, l'.untimed_dress e hvalues]
  simp only [Logging.post, hactive, hactive']
  refine ⟨h.environment, h.chosen, h.context, ?_, ?_⟩
  · cases collect with
    | false => exact ⟨c, rfl, rfl⟩
    | true =>
      obtain rfl := hcollect rfl
      refine ⟨l'.collected c (l'.dress e values), ?_, rfl⟩
      simp only [if_true, collected, h.context, dress_eq h.environment h.chosen h.context]
  · have hlevel := level_dress l e values
    have hlevel' := level_dress l' e values'
    simp only [kept_log, hlevel, hlevel', Level.admits_debug, if_true, List.filter_cons]
    split
    · rw [List.map_cons, List.map_cons, hdress, h.kept]
    · exact h.kept

theorem Quieter.success (h : Quieter minimum l l') (code : Log.Code) (message : String)
    {values values' : List (String × String)}
    (hvalues : values.map Highlight1C.untimed = values'.map Highlight1C.untimed) :
    Quieter minimum (l.success code message values) (l'.success code message values') :=
  h.post false _ hvalues nofun

theorem Quieter.error (h : Quieter minimum l l') (code : Log.Code) (message : String)
    (span : Option Span) (values : List (String × String)) :
    Quieter minimum (l.error code message span values) (l'.error code message span values) :=
  h.post true _ rfl fun _ => rfl

theorem Quieter.warning (h : Quieter minimum l l') (code : Option Log.Code) (message : String)
    (span : Option Span) (values : List (String × String)) :
    Quieter minimum (l.warning code message span values) (l'.warning code message span values) :=
  h.post true _ rfl fun _ => rfl

theorem Quieter.debug (h : Quieter minimum l l') (message : String) (span : Option Span)
    (values : List (String × String)) :
    Quieter minimum (l.debug message span values) (l'.debug message span values) := by
  rw [debug_eq_post, debug_eq_post]
  exact h.post false _ rfl nofun

end Logging

open Logging

/-! ## In lockstep -/

/-- Both break the same contract, or both come to results that are related. -/
def Lockstep {α β : Type} (R : α → β → Prop) : Except Fault α → Except Fault β → Prop
  | .ok a, .ok b => R a b
  | .error fault, .error fault' => fault = fault'
  | .ok _, .error _ => False
  | .error _, .ok _ => False

namespace Lockstep

variable {α β γ δ : Type} {R : α → β → Prop} {S : γ → δ → Prop}

theorem refl {R : α → α → Prop} (h : ∀ a, R a a) (x : Except Fault α) : Lockstep R x x := by
  cases x with
  | ok a => exact h a
  | error fault => exact rfl

theorem mono {R' : α → β → Prop} {x : Except Fault α} {y : Except Fault β} (h : Lockstep R x y)
    (hR : ∀ a b, R a b → R' a b) : Lockstep R' x y := by
  cases x with
  | ok a =>
    cases y with
    | ok b => exact hR a b h
    | error _ => exact h.elim
  | error fault =>
    cases y with
    | ok _ => exact h.elim
    | error _ => exact h

theorem bind {x : Except Fault α} {y : Except Fault β} {f : α → Except Fault γ}
    {g : β → Except Fault δ} (h : Lockstep R x y) (hfg : ∀ a b, R a b → Lockstep S (f a) (g b)) :
    Lockstep S (x >>= f) (y >>= g) := by
  cases x with
  | ok a =>
    cases y with
    | ok b => exact hfg a b h
    | error _ => exact h.elim
  | error fault =>
    cases y with
    | ok _ => exact h.elim
    | error _ => exact h

theorem foldlM {f : α → γ → Except Fault α} {g : β → γ → Except Fault β}
    (hfg : ∀ a b c, R a b → Lockstep R (f a c) (g b c)) {a : α} {b : β} (h : R a b)
    (cs : List γ) : Lockstep R (cs.foldlM f a) (cs.foldlM g b) := by
  induction cs generalizing a b with
  | nil => exact h
  | cons c cs ih =>
    rw [List.foldlM_cons, List.foldlM_cons]
    exact (hfg a b c h).bind fun a b hab => ih hab

end Lockstep

/-- The same result, and logging that is quieter by the minimum level. -/
def Same {α : Type} (minimum : Level) (r r' : α × Logging) : Prop :=
  r.1 = r'.1 ∧ Quieter minimum r.2 r'.2

/-! ## Scans -/

namespace Session

variable {minimum : Level} {s s' : Session} {l l' : Logging}

/-- The same session but for its logging, which is quieter. -/
def Quieter (minimum : Level) (s s' : Session) : Prop :=
  ∃ logging', s' = { s with logging := logging' } ∧ Logging.Quieter minimum s.logging logging'

theorem Quieter.noteError (h : Quieter minimum s s') (language : Language)
    (preferences : ScannerPreferences) (t : Token) :
    Quieter minimum (s.noteError language preferences t) (s'.noteError language preferences t) := by
  obtain ⟨logging', rfl, h⟩ := h
  refine ⟨_, rfl, ?_⟩
  simp only [Session.noteError]
  split
  · exact h
  split
  · exact h.debug ..
  split
  · exact h.debug ..
  · exact h

theorem Quieter.feed (h : Quieter minimum s s') (language : Language)
    (preferences : ScannerPreferences) (p : Piece Lexeme) :
    Lockstep (Quieter minimum) (s.feed language preferences p) (s'.feed language preferences p) := by
  obtain ⟨logging', rfl, h⟩ := h
  cases p with
  | beginGroup => exact ⟨logging', rfl, h⟩
  | endGroup => exact ⟨logging', rfl, h⟩
  | token l =>
    refine Lockstep.bind (.refl (fun _ => rfl) (s.place l)) ?_
    rintro t _ rfl
    have hput : Quieter minimum
        { s.put (.token t) with position := t.span.stop, tokens := s.tokens + 1 }
        { { s with logging := logging' }.put (.token t) with
          position := t.span.stop, tokens := s.tokens + 1 } := ⟨logging', rfl, h⟩
    show Quieter minimum _ _
    split
    · exact hput.noteError language preferences t
    · exact hput

theorem Quieter.closeOpen (h : Quieter minimum s s') (language : Language)
    (preferences : ScannerPreferences) (mode : Mode) :
    Quieter minimum (s.closeOpen language preferences mode)
      (s'.closeOpen language preferences mode) := by
  obtain ⟨logging', rfl, h⟩ := h
  cases mode with
  | initial => exact ⟨logging', rfl, h⟩
  | inString =>
    refine ⟨_, rfl, ?_⟩
    simp only [Session.closeOpen, put]
    split
    · exact h.debug ..
    · exact h

theorem scan_lockstep (h : Logging.Quieter minimum l l') (language : Language)
    (preferences : ScannerPreferences) (keepMetrics : Bool) (source : List Char) :
    Lockstep (Same minimum) (scan language preferences keepMetrics source l)
      (scan language preferences keepMetrics source l') := by
  have hfirst (keepMetrics : Bool) (values : List (String × String)) :
      Quieter minimum
        { logging := l.debug "Scan started" none values
          metrics := if keepMetrics then some {} else none }
        { logging := l'.debug "Scan started" none values
          metrics := if keepMetrics then some {} else none } :=
    ⟨_, rfl, h.debug ..⟩
  refine Lockstep.bind (Lockstep.foldlM (fun s s' p hs => hs.feed language preferences p)
    (hfirst keepMetrics _) (language.read source).pieces) fun s s' hs => ?_
  split
  · obtain ⟨logging', heq, hclosed⟩ := hs.closeOpen language preferences (language.read source).mode
    rw [heq]
    exact ⟨rfl, hclosed.success _ _ rfl⟩
  · obtain ⟨logging', rfl, hs⟩ := hs
    exact ⟨rfl, hs.error ..⟩

end Session

/-! ## Sources and files -/

variable {minimum : Level} {l l' : Logging}

theorem checkStream_lockstep (h : Quieter minimum l l') (language : Language)
    (stream : TokenStream) (source : List Char) :
    Lockstep (Quieter minimum) (checkStream language stream source l)
      (checkStream language stream source l') := by
  refine Lockstep.bind (.refl (fun _ => rfl) (stream.validate source)) ?_
  rintro violation _ rfl
  cases violation with
  | none => exact h.success _ _ rfl
  | some violation => exact h.error ..

theorem reportErrors_quieter (h : Quieter minimum l l') (language : Language)
    (stream : TokenStream) :
    Quieter minimum (reportErrors language stream l) (reportErrors language stream l') := by
  unfold reportErrors
  split
  · exact h
  · exact h.warning ..

theorem highlightSource_lockstep (h : Quieter minimum l l') (language : Language)
    (source : List Char) (preferences : ScannerPreferences) :
    Lockstep (Same minimum) (highlightSource language source preferences l)
      (highlightSource language source preferences l') := by
  refine Lockstep.bind (Session.scan_lockstep h language preferences _ source) ?_
  rintro ⟨outcome, scanned⟩ ⟨_, scanned'⟩ ⟨rfl, hscanned⟩
  cases outcome with
  | error fault => exact ⟨rfl, hscanned⟩
  | ok scan =>
    refine Lockstep.bind (checkStream_lockstep hscanned language scan.stream source) ?_
    intro checked checked' hchecked
    exact ⟨rfl, reportErrors_quieter hchecked language scan.stream⟩

/-- Values that differ at most in how long something took. -/
theorem map_untimed_duration (values : List (String × String)) (elapsed elapsed' : String) :
    (values ++ [(durationKey, elapsed)]).map untimed =
      (values ++ [(durationKey, elapsed')]).map untimed := by
  simp [untimed]

theorem SourceFile.noteRead_quieter (h : Quieter minimum l l') (info : FileInfo) (timed : Bool) :
    Quieter minimum (noteRead info timed l) (noteRead info timed l') := by
  refine h.success _ _ ?_
  cases timed with
  | false => rfl
  | true => exact map_untimed_duration [_, _, _, _] l.clock.elapsed l'.clock.elapsed

theorem SourceFile.load_same (h : Quieter minimum l l') (fs : FileSystem) (path : String)
    (timed : Bool) : Same minimum (load fs path timed l) (load fs path timed l') := by
  have hstart := h.debug "Starting file processing" none [("file", path)]
  simp only [load]
  split
  · exact ⟨rfl, hstart.error ..⟩
  split
  · exact ⟨rfl, hstart.error ..⟩
  split
  · exact ⟨rfl, hstart.error ..⟩
  · refine ⟨rfl, noteRead_quieter ?_ _ timed⟩
    split
    · exact hstart.debug ..
    · exact hstart

theorem highlightFile_lockstep (h : Quieter minimum l l') (fs : FileSystem) (path : String)
    (language : Option Language) (preferences : ScannerPreferences) :
    Lockstep (Same minimum) (highlightFile fs path language preferences l)
      (highlightFile fs path language preferences l') := by
  unfold highlightFile
  split
  · exact ⟨rfl, h.error ..⟩
  next language _ =>
  have hstart := h.debug "Highlighting file" none [("file", path), ("language", language.name)]
  have hload := SourceFile.load_same hstart fs path true
  simp only []
  generalize SourceFile.load fs path true
    (l.debug "Highlighting file" none [("file", path), ("language", language.name)]) = r at hload
  generalize SourceFile.load fs path true
    (l'.debug "Highlighting file" none [("file", path), ("language", language.name)]) = r' at hload
  obtain ⟨loaded, read⟩ := r
  obtain ⟨_, read'⟩ := r'
  obtain ⟨rfl, hread⟩ := hload
  cases loaded with
  | error e => exact ⟨rfl, hread⟩
  | ok file =>
    refine Lockstep.bind (highlightSource_lockstep hread language file.text preferences) ?_
    rintro ⟨outcome, highlighted⟩ ⟨_, highlighted'⟩ ⟨rfl, hhighlighted⟩
    cases outcome with
    | error e => exact ⟨rfl, hhighlighted⟩
    | ok highlight =>
      refine ⟨rfl, hhighlighted.success _ _ ?_⟩
      exact map_untimed_duration [_, _, _] highlighted.clock.elapsed highlighted'.clock.elapsed

/-! ## Requests -/

/-- What a program can ask of the library. -/
inductive Request where
  /-- To begin work on a file. -/
  | beginFile (path : String) (id : Nat)
  /-- To end it. -/
  | endFile
  /-- To highlight a source. -/
  | source (language : Language) (text : List Char) (preferences : ScannerPreferences)
  /-- To highlight a file, found as it is then. -/
  | file (fs : FileSystem) (path : String) (language : Option Language)
    (preferences : ScannerPreferences)

/-- A request, with what the clock says meanwhile. -/
structure Call where
  request : Request
  clock : Log.Clock

/-- What comes of a request; there is an outcome if something is to be highlighted. -/
def Request.answer (logging : Logging) :
    Request → Except Fault (Option (Except HighlightError Highlight) × Logging)
  | .beginFile path id => return (none, logging.beginFile path id)
  | .endFile => return (none, logging.endFile)
  | .source language text preferences => do
    let (outcome, logging) ← highlightSource language text preferences logging
    return (some outcome, logging)
  | .file fs path language preferences => do
    let (outcome, logging) ← highlightFile fs path language preferences logging
    return (some outcome, logging)

/-- What comes of calls, one after the other. -/
def runCalls (logging : Logging) :
    List Call → Except Fault (List (Option (Except HighlightError Highlight)) × Logging)
  | [] => return ([], logging)
  | call :: calls => do
    let (answer, logging) ← call.request.answer { logging with clock := call.clock }
    let (answers, logging) ← runCalls logging calls
    return (answer :: answers, logging)

theorem Request.lockstep (h : Quieter minimum l l') (request : Request) :
    Lockstep (Same minimum) (request.answer l) (request.answer l') := by
  cases request with
  | beginFile path id =>
    obtain ⟨c, hactive, hactive'⟩ := h.active
    refine ⟨rfl, h.environment, h.chosen, rfl, ⟨c.beginFile path, ?_, ?_⟩, h.kept⟩
    · rw [Logging.beginFile, hactive]
      rfl
    · rw [Logging.beginFile, hactive']
      rfl
  | endFile => exact ⟨rfl, h.environment, h.chosen, rfl, h.active, h.kept⟩
  | source language text preferences =>
    refine Lockstep.bind (highlightSource_lockstep h language text preferences) ?_
    rintro ⟨outcome, after⟩ ⟨_, after'⟩ ⟨rfl, hafter⟩
    exact ⟨rfl, hafter⟩
  | file fs path language preferences =>
    refine Lockstep.bind (highlightFile_lockstep h fs path language preferences) ?_
    rintro ⟨outcome, after⟩ ⟨_, after'⟩ ⟨rfl, hafter⟩
    exact ⟨rfl, hafter⟩

/-- The same requests are answered the same, whatever the clocks say. -/
theorem runCalls_lockstep (h : Quieter minimum l l') {calls calls' : List Call}
    (hrequests : calls.map Call.request = calls'.map Call.request) :
    Lockstep (Same minimum) (runCalls l calls) (runCalls l' calls') := by
  induction calls generalizing l l' calls' with
  | nil =>
    obtain rfl : calls' = [] := List.map_eq_nil_iff.mp hrequests.symm
    exact ⟨rfl, h⟩
  | cons call calls ih =>
    cases calls' with
    | nil => cases hrequests
    | cons call' calls' =>
      obtain ⟨hrequest, hrequests⟩ := List.cons.inj hrequests
      have hclock : Quieter minimum { l with clock := call.clock } { l' with clock := call'.clock } :=
        ⟨h.environment, h.chosen, h.context, h.active, h.kept⟩
      unfold runCalls
      rw [← hrequest]
      refine Lockstep.bind (Request.lockstep hclock call.request) ?_
      rintro ⟨answer, after⟩ ⟨_, after'⟩ ⟨rfl, hafter⟩
      refine Lockstep.bind (ih hafter hrequests) ?_
      rintro ⟨answers, last⟩ ⟨_, last'⟩ ⟨rfl, hlast⟩
      exact ⟨rfl, hlast⟩

/-- What is to be highlighted has at most 2³² − 2 characters. -/
def Request.Fits : Request → Prop
  | .source _ text _ => text.length ≤ sourceBound
  | .file fs path _ _ => fs.Fits path
  | .beginFile _ _ | .endFile => True

theorem Request.exists_answer {request : Request} (hfits : request.Fits) (logging : Logging) :
    ∃ r, request.answer logging = .ok r := by
  cases request with
  | beginFile path id => exact ⟨_, rfl⟩
  | endFile => exact ⟨_, rfl⟩
  | source language text preferences =>
    obtain ⟨highlight, after, hrun⟩ : ∃ highlight after,
        highlightSource language text preferences logging = .ok (.ok highlight, after) := by
      obtain ⟨highlight, after, hrun, -⟩ := highlightSource_eq hfits preferences logging
      exact ⟨highlight, after, hrun⟩
    simp only [answer, hrun]
    exact ⟨_, rfl⟩
  | file fs path language preferences =>
    obtain ⟨outcome, after, hrun⟩ := exists_highlightFile hfits language preferences logging
    simp only [answer, hrun]
    exact ⟨_, rfl⟩

/-- Calls come to their end. -/
theorem exists_runCalls {calls : List Call} (hfits : ∀ call ∈ calls, call.request.Fits)
    (logging : Logging) : ∃ r, runCalls logging calls = .ok r := by
  induction calls generalizing logging with
  | nil => exact ⟨_, rfl⟩
  | cons call calls ih =>
    obtain ⟨hfirst, hrest⟩ := List.forall_mem_cons.mp hfits
    obtain ⟨⟨answer, after⟩, hanswer⟩ :=
      Request.exists_answer hfirst { logging with clock := call.clock }
    obtain ⟨r, hr⟩ := ih hrest after
    simp only [runCalls, hanswer, bind, Except.bind, hr]
    exact ⟨_, rfl⟩

/-! ## The minimum level -/

/-- Setting logging up says so in both, if the minimum level lets that through. -/
theorem activate_quieter {logging : Logging} (hinactive : logging.active = none)
    (hempty : logging.output.kept = []) (minimum : Level) :
    ∃ first first', logging.activate ⟨.memory, minimum⟩ = .ok first ∧
      logging.activate ⟨.memory, .debug⟩ = .ok first' ∧ Quieter minimum first first' := by
  simp only [activate, hinactive]
  refine ⟨_, _, rfl, rfl, rfl, rfl, rfl, ⟨.empty, rfl, rfl⟩, ?_⟩
  simp only [kept_log, hempty, Level.admits_debug, if_true, List.filter_cons]
  split
  · rfl
  · rfl

/-- What a run from a minimum level on has to do with the one in which everything
is kept. -/
structure Filtered (minimum : Level)
    (r r' : List (Option (Except HighlightError Highlight)) × Logging) : Prop where
  /-- The answers are the same. -/
  answers : r.1 = r'.1
  /-- The events are those that the minimum level lets through, times aside. -/
  events : r.2.output.events.map Event.untimed =
    (r'.2.output.events.filter fun e => minimum.admits e.level).map Event.untimed
  /-- The same is collected. -/
  collector : ∃ c, r.2.active = some ⟨⟨.memory, minimum⟩, c⟩ ∧
    r'.2.active = some ⟨⟨.memory, .debug⟩, c⟩

/-- The minimum level only filters. A program makes the same requests of the
library, once with events kept in memory from a minimum level on, and once with
all events kept; the clock may say something else each time. Then both runs break
the same contract, or both come to their end, which they do if what is to be
highlighted has at most 2³² − 2 characters. At the end the first has kept the
events of the second that the minimum level lets through, times aside, and the
same errors and warnings have been collected. -/
theorem runCalls_filtered {logging : Logging} (hinactive : logging.active = none)
    (hempty : logging.output.kept = []) (minimum : Level) {calls calls' : List Call}
    (hrequests : calls.map Call.request = calls'.map Call.request) :
    ∃ first first', logging.activate ⟨.memory, minimum⟩ = .ok first ∧
      logging.activate ⟨.memory, .debug⟩ = .ok first' ∧
      Lockstep (Filtered minimum) (runCalls first calls) (runCalls first' calls') ∧
      ((∀ call ∈ calls, call.request.Fits) → ∃ r, runCalls first calls = .ok r) := by
  obtain ⟨first, first', hfirst, hfirst', hquieter⟩ := activate_quieter hinactive hempty minimum
  refine ⟨first, first', hfirst, hfirst', (runCalls_lockstep hquieter hrequests).mono ?_,
    fun hfits => exists_runCalls hfits first⟩
  rintro ⟨answers, l⟩ ⟨_, l'⟩ ⟨rfl, h⟩
  refine ⟨rfl, ?_, h.active⟩
  simp only [Log.Output.events, List.filter_reverse, List.map_reverse, h.kept]

/-- Work on a file: a query with a character that no rule recognises. -/
def Call.sample (elapsed : String) : List Call :=
  [.beginFile "a.sql" 1, .source .query ['§'] ⟨true, true, true⟩, .endFile].map
    fun request => ⟨request, ⟨"", elapsed⟩⟩

/-- With warnings kept, and with everything kept while the clock says something
else. -/
theorem runCalls_filtered_sample :
    Logging.off.active = none ∧ Logging.off.output.kept = [] ∧
    (Call.sample "0.1").map Call.request = (Call.sample "0.2").map Call.request ∧
    ∃ first first' r r', Logging.off.activate ⟨.memory, .warning⟩ = .ok first ∧
      Logging.off.activate ⟨.memory, .debug⟩ = .ok first' ∧
      runCalls first (Call.sample "0.1") = .ok r ∧ runCalls first' (Call.sample "0.2") = .ok r' ∧
      Filtered .warning r r' := by
  have hinactive : Logging.off.active = none := rfl
  have hempty : Logging.off.output.kept = [] := rfl
  have hrequests : (Call.sample "0.1").map Call.request = (Call.sample "0.2").map Call.request := rfl
  obtain ⟨first, first', hfirst, hfirst', hlockstep, hends⟩ :=
    runCalls_filtered hinactive hempty .warning hrequests
  have hsize : ['§'].length ≤ sourceBound := by decide
  have hfits : ∀ call ∈ Call.sample "0.1", call.request.Fits := by
    simp only [Call.sample, List.map_cons, List.map_nil, List.forall_mem_cons]
    exact ⟨trivial, hsize, trivial, nofun⟩
  obtain ⟨r, hr⟩ := hends hfits
  rw [hr] at hlockstep
  cases hr' : runCalls first' (Call.sample "0.2") with
  | error fault =>
    rw [hr'] at hlockstep
    exact hlockstep.elim
  | ok r' =>
    rw [hr'] at hlockstep
    exact ⟨hinactive, hempty, hrequests, first, first', r, r', hfirst, hfirst', hr, hr', hlockstep⟩

end Highlight1C
