import Highlight1C.Proofs.Completion
import Highlight1C.Proofs.Tally
import Mathlib.Data.List.Nodup

/-!
# The closing report and the outcome

A run counts the inputs that fail in two places: the exit code comes from the
number of results that were errors, and the closing report from the events that
were collected on the way. `Progress` says what holds of both, and of what has been
written about failures, when some of the inputs have been dealt with. Each input
keeps it so (`Progress.step`), hence a run does (`Progress.run`).

An input that fails is said to have failed on standard error, once
(`processInput_eq_ok`): whatever else is written there, records, warnings and
diagnostics, does not begin as such a complaint does (`Log.Output.complaints`). A
file that fails is collected too, with one error under its own path. For standard
input this is not so: that it has no language or is not UTF-8 is collected nowhere
(`highlightStdin_handled`). Then the report has one failure fewer than the program
has complained of (`run_report`), and this is the only difference.
-/

namespace Highlight1C

open Log (Event Level Collector)
open Log.Collector (Tally)

/-! ## Complaints -/

namespace Log

/-- Whether something on the screen says that an input failed. -/
def Chunk.isComplaint : Chunk → Bool
  | .text s => "error: ".toList.isPrefixOf s.toList
  | .record _ _ => false

/-- All that says so, the oldest first. -/
def Output.complaints (o : Output) : List Chunk :=
  o.screen.reverse.filter Chunk.isComplaint

theorem Chunk.isComplaint_of_head {s : String} {c : Char} (h : s.toList.head? = some c)
    (hc : c ≠ 'e') : isComplaint (.text s) = false := by
  obtain ⟨cs, hs⟩ := List.head?_eq_some_iff.mp h
  have hword : "error: ".toList = 'e' :: "rror: ".toList := rfl
  have hfirst : ('e' == c) = false := beq_false_of_ne (Ne.symm hc)
  rw [isComplaint, hs, hword, List.isPrefixOf_cons_cons, hfirst, Bool.false_and]

theorem Output.complaints_write_of_isComplaint {text : String}
    (h : Chunk.isComplaint (.text text) = true) (o : Output) :
    (o.write text).complaints = o.complaints ++ [.text text] := by
  simp [complaints, write, h]

theorem Output.complaints_write_of_head {text : String} {c : Char}
    (h : text.toList.head? = some c) (hc : c ≠ 'e') (o : Output) :
    (o.write text).complaints = o.complaints := by
  simp [complaints, write, Chunk.isComplaint_of_head h hc]

end Log

/-- A text begins as its first part. -/
theorem head?_toList_append {a : String} {c : Char} (h : a.toList.head? = some c) (b : String) :
    (a ++ b).toList.head? = some c := by
  rw [String.toList_append, List.head?_append, h, Option.some_or]

theorem isPrefix_toList_append (a b : String) : a.toList <+: (a ++ b).toList := by
  rw [String.toList_append]
  exact List.prefix_append _ _

namespace Json

mutual

/-- A value is written behind what is there. -/
theorem isPrefix_appendCompact (out : String) : (j : Json) →
    out.toList <+: (appendCompact out j).toList
  | .null => isPrefix_toList_append _ _
  | .bool _ => isPrefix_toList_append _ _
  | .number _ => isPrefix_toList_append _ _
  | .string _ => isPrefix_toList_append _ _
  | .array items =>
    (isPrefix_toList_append out "[").trans <|
      (isPrefix_appendCompactItems _ "" items).trans (isPrefix_toList_append _ "]")
  | .object fields =>
    (isPrefix_toList_append out "\x7b").trans <|
      (isPrefix_appendCompactFields _ "" fields).trans (isPrefix_toList_append _ "\x7d")

theorem isPrefix_appendCompactItems (out separator : String) : (items : List Json) →
    out.toList <+: (appendCompactItems out separator items).toList
  | [] => List.prefix_rfl
  | item :: rest =>
    (isPrefix_toList_append out separator).trans <|
      (isPrefix_appendCompact _ item).trans (isPrefix_appendCompactItems _ "," rest)

theorem isPrefix_appendCompactFields (out separator : String) : (fields : List (String × Json)) →
    out.toList <+: (appendCompactFields out separator fields).toList
  | [] => List.prefix_rfl
  | (key, value) :: rest =>
    (isPrefix_toList_append out separator).trans <|
      (isPrefix_toList_append _ (quote key)).trans <|
        (isPrefix_toList_append _ ":").trans <|
          (isPrefix_appendCompact _ value).trans (isPrefix_appendCompactFields _ "," rest)

end

theorem head?_compact_object (fields : List (String × Json)) :
    (compact (.object fields)).toList.head? = some '\x7b' := by
  obtain ⟨rest, h⟩ := isPrefix_appendCompactFields ("" ++ "\x7b") "" fields
  refine head?_toList_append ?_ "\x7d"
  rw [← h]
  rfl

end Json

namespace Log

/-- No sink complains. -/
theorem Sink.complaints_send (sink : Sink) (minimum : Level) (clock : Clock) (e : Event)
    (o : Output) : (sink.send minimum clock e o).complaints = o.complaints := by
  cases sink with
  | memory => rfl
  | console =>
    simp only [send]
    split
    · have hhead : (e.line ++ "\n").toList.head? = some '[' := by
        simp only [Event.line, String.append_assoc]
        exact head?_toList_append rfl _
      exact Output.complaints_write_of_head hhead (by decide) o
    · rfl
  | structured =>
    simp only [send]
    split
    · have hhead : ((e.json clock.stamp).compact ++ "\n").toList.head? = some '\x7b' :=
        head?_toList_append (Json.head?_compact_object _) _
      exact Output.complaints_write_of_head hhead (by decide) o
    · rfl
  | backend filter style =>
    simp only [send]
    split
    · simp [Output.complaints, Chunk.isComplaint]
    · rfl
  | silent => rfl

theorem Service.complaints_log (service : Service) (clock : Clock) (e : Event) (o : Output) :
    (service.log clock e o).complaints = o.complaints := by
  unfold log
  split
  · exact Sink.complaints_send ..
  · rfl

end Log

namespace Logging

theorem complaints_post (l : Logging) (collect : Bool) (e : Event)
    (values : List (String × String)) :
    (l.post collect e values).output.complaints = l.output.complaints := by
  unfold post
  split
  · rfl
  · exact Log.Service.complaints_log ..

/-- Whatever is collected, logging does not complain. -/
theorem Collects.complaints {levels : List Level} {l l' : Logging} (h : Collects levels l l') :
    l'.output.complaints = l.output.complaints := by
  obtain ⟨postings, rfl, -⟩ := h
  clear levels
  induction postings generalizing l with
  | nil => rfl
  | cons p postings ih => exact (ih (l := l.post _ _ _)).trans (complaints_post ..)

end Logging

/-! ## Inputs -/

namespace Command

open Logging (Collects)

/-- Whether standard input cannot be highlighted: no language is given, or it is not
UTF-8. -/
def stdinFails (language : Option Language) (stdin : List UInt8) : Bool :=
  match language with
  | none => true
  | some _ => !(textOfBytes stdin).isOk

/-- The levels of the events that are collected for an input. That standard input
cannot be highlighted is collected nowhere. -/
def collectedLevels (input : String) : Except String Highlight → List Level
  | .error _ => if input = "-" then [] else [.error]
  | .ok h => if h.hasErrors then [.warning] else []

/-- The inputs that failed among some, with what was said of each. -/
def failures (input : String) : Except String Highlight → List (String × String)
  | .error message => [(input, message)]
  | .ok _ => []

/-- The word on the screen that an input failed. -/
def complaint (failure : String × String) : Log.Chunk :=
  .text s!"error: {inputName failure.1}: {failure.2}\n"

variable {world : World} {options : Options} {scanner : ScannerPreferences} {s s' : State}
  {input : String} {language : Option Language} {result : Except String Highlight}

/-- What an input leads to, besides its result. -/
structure Handled (service : Log.Service) (c : Collector) (file : FileContext) (input : String)
    (result : Except String Highlight) (s s' : State) : Prop where
  /-- Events are collected for it, -/
  collected : ∃ events : List Event, events.map (·.level) = collectedLevels input result ∧
    s'.logging.active = some ⟨service, events.foldl (fun c e => c.record file.path e) c⟩
  /-- and nothing is said of a failure. -/
  quiet : s'.logging.output.complaints = s.logging.output.complaints
  failures : s'.failures = s.failures

theorem Handled.of_collects {service : Log.Service} {c : Collector} {file : FileContext}
    (h : Collects (collectedLevels input result) s.logging s'.logging)
    (hactive : s.logging.active = some ⟨service, c⟩) (hcontext : s.logging.context = some file)
    (hfailures : s'.failures = s.failures) : Handled service c file input result s s' :=
  ⟨h.recorded hactive hcontext, h.complaints, hfailures⟩

/-- What comes of a source or a file, as a result of an input. -/
theorem collectedLevels_mapError (hfile : input ≠ "-") (outcome : Highlight1C.Outcome) :
    collectedLevels input (outcome.mapError (·.message)) = Outcome.levels outcome := by
  cases outcome with
  | error e => exact if_neg hfile
  | ok highlight => rfl

theorem highlightStdin_handled {service : Log.Service} {c : Collector} {file : FileContext}
    (h : highlightStdin s language scanner = .ok (result, s'))
    (hactive : s.logging.active = some ⟨service, c⟩) (hcontext : s.logging.context = some file) :
    Handled service c file "-" result s s' ∧
      (failures "-" result = [] ↔ stdinFails language s.stdin = false) := by
  unfold highlightStdin at h
  split at h
  · cases h
    refine ⟨⟨⟨[], rfl, ?_⟩, ?_, rfl⟩, iff_of_false nofun nofun⟩
    · rw [Logging.plainError, hactive]
      rfl
    · rw [Logging.plainError, hactive]
      exact Log.Service.complaints_log ..
  next language =>
  split at h
  · next e htext =>
    cases h
    refine ⟨⟨⟨[], rfl, hactive⟩, rfl, rfl⟩, iff_of_false nofun ?_⟩
    simp [stdinFails, htext, Except.isOk, Except.toBool]
  · next text htext =>
    obtain ⟨⟨outcome, logging⟩, hsource, h⟩ := bind_eq_ok h
    have hcollects := highlightSource_collects hsource
    obtain ⟨rfl, -⟩ := highlightSource_eq_ok hsource
    cases h
    refine ⟨.of_collects hcollects hactive hcontext rfl, iff_of_true rfl ?_⟩
    simp [stdinFails, htext, Except.isOk, Except.toBool]

theorem highlightInput_handled {service : Log.Service} {c : Collector} {file : FileContext}
    (h : highlightInput world s input language scanner = .ok (result, s'))
    (hactive : s.logging.active = some ⟨service, c⟩) (hcontext : s.logging.context = some file) :
    Handled service c file input result s s' ∧
      if input = "-" then failures "-" result = [] ↔ stdinFails language s.stdin = false
      else s'.stdin = s.stdin := by
  unfold highlightInput at h
  split at h
  · next hstdin =>
    subst hstdin
    rw [if_pos rfl]
    exact highlightStdin_handled h hactive hcontext
  · next hfile =>
    rw [if_neg hfile]
    obtain ⟨⟨outcome, logging⟩, hrun, h⟩ := bind_eq_ok h
    have hcollects := highlightFile_collects hrun
    cases h
    rw [← collectedLevels_mapError hfile] at hcollects
    exact ⟨.of_collects hcollects hactive hcontext rfl, rfl⟩

theorem head?_report {m : LineMap} {span : Span} {message text : String}
    (h : m.report span message = .ok text) : text.toList.head? = some 'w' := by
  unfold LineMap.report at h
  split at h
  · rw [← Except.ok.inj h]
    simp only [String.append_assoc]
    exact head?_toList_append rfl _
  · obtain ⟨carets, -, h⟩ := bind_eq_ok h
    rw [← Except.ok.inj h]
    simp only [String.append_assoc]
    exact head?_toList_append (head?_toList_append rfl _) _

/-- Pointing at a character is no complaint. -/
theorem reportFirstError_spec {name : String} {highlight : Highlight} {l l' : Logging}
    (h : reportFirstError name highlight l = .ok l') :
    l'.active = l.active ∧ l'.output.complaints = l.output.complaints := by
  unfold reportFirstError at h
  split at h
  · cases h
    exact ⟨rfl, rfl⟩
  · next first others _ =>
    obtain ⟨text, hreport, h⟩ := bind_eq_ok h
    cases h
    exact ⟨rfl, Log.Output.complaints_write_of_head (head?_report hreport) (by decide) _⟩

theorem isComplaint_complaint (failure : String × String) :
    (complaint failure).isComplaint = true := by
  simp only [complaint, String.append_assoc]
  exact List.isPrefixOf_iff_prefix.mpr (isPrefix_toList_append "error: " _)

/-- Dealing with an input is highlighting it and then saying what came of it. -/
theorem processInput_eq_ok {index : Nat}
    (h : processInput world options scanner s index input = .ok s') :
    ∃ result s₁, highlightInput world
        { s with logging := s.logging.beginFile (inputName input) index } input options.language
        scanner = .ok (result, s₁) ∧
      s'.logging.active = s₁.logging.active ∧ s'.stdin = s₁.stdin ∧
      s'.failures = s₁.failures + (failures input result).length ∧
      s'.logging.output.complaints =
        s₁.logging.output.complaints ++ (failures input result).map complaint := by
  obtain ⟨⟨result, s₁⟩, hinput, h⟩ := bind_eq_ok h
  refine ⟨result, s₁, hinput, ?_⟩
  cases result with
  | ok highlight =>
    obtain ⟨logging, hreport, h⟩ := bind_eq_ok h
    obtain ⟨hactive, hquiet⟩ := reportFirstError_spec hreport
    cases h
    exact ⟨hactive, rfl, rfl, hquiet.trans (List.append_nil _).symm⟩
  | error message =>
    cases h
    exact ⟨rfl, rfl, rfl,
      Log.Output.complaints_write_of_isComplaint (isComplaint_complaint (input, message)) _⟩

/-! ## All inputs -/

/-- No two inputs have the same path. -/
def Distinct (inputs : List String) : Prop :=
  inputs.Pairwise fun a b => Path.same a b = false

theorem Distinct.nodup {inputs : List String} (h : Distinct inputs) : inputs.Nodup := by
  refine h.imp fun {a b} hab heq => ?_
  rw [heq, Path.same_refl] at hab
  cases hab

/-- At most standard input is reported under the name of a file that is new. -/
theorem countP_inputName_le {done : List String} (hdone : Distinct done)
    (hnew : ∀ other ∈ done, Path.same other input = false) :
    (done.map inputName).countP (Path.same input) ≤ 1 := by
  rw [List.countP_map]
  refine Nat.le_trans (m := done.count "-") (List.countP_mono_left fun other hother hsame => ?_) ?_
  · refine beq_iff_eq.mpr (Decidable.byContradiction fun hother' => ?_)
    have hname : inputName other = other := if_neg hother'
    have hsame : Path.same other input = true := by
      rw [Path.same_comm, ← hname]
      exact hsame
    cases (hnew other hother).symm.trans hsame
  · exact List.nodup_iff_count_le_one.mp hdone.nodup "-"

/-- How far a run has come: the inputs that it has dealt with, and those among them
that failed, with what was said of each. -/
structure Progress (service : Log.Service) (language : Option Language) (stdin : List UInt8)
    (done : List String) (failed : List (String × String)) (s : State) : Prop where
  count : s.failures = failed.length
  among : (failed.map Prod.fst).Sublist done
  /-- What is said of them is all that is said of failures. -/
  printed : s.logging.output.complaints = failed.map complaint
  /-- All that failed are counted by the collector but standard input. -/
  collected : ∃ c, s.logging.active = some ⟨service, c⟩ ∧
    Tally (done.map inputName) ((failed.map Prod.fst).filter (· ≠ "-")) c
  unread : "-" ∉ done → s.stdin = stdin
  dash : "-" ∈ failed.map Prod.fst ↔ "-" ∈ done ∧ stdinFails language stdin = true

/-- What is collected for an input is counted as a failure if it is a file that
failed. -/
theorem tally_input {names failing : List String} {c : Collector}
    (htally : Tally names failing c) (hroom : names.length < Limits.current.maxErrorCollection)
    (hnew : input ≠ "-" → ∀ name ∈ failing, Path.same name input = false)
    (hfew : input ≠ "-" → names.countP (Path.same input) ≤ 1) {events : List Event}
    (hevents : events.map (·.level) = collectedLevels input result) :
    Tally (inputName input :: names)
      (((failures input result).map Prod.fst).filter (· ≠ "-") ++ failing)
      (events.foldl (fun c e => c.record (inputName input) e) c) := by
  have hnone (hlevels : collectedLevels input result = []) : events = [] := by
    rw [hlevels] at hevents
    exact List.map_eq_nil_iff.mp hevents
  have hone {level : Level} (hlevels : collectedLevels input result = [level]) :
      ∃ e, events = [e] ∧ e.level = level := by
    rw [hlevels] at hevents
    exact List.map_eq_singleton_iff.mp hevents
  cases result with
  | ok highlight =>
    by_cases hwarned : highlight.hasErrors = true
    · obtain ⟨e, rfl, he⟩ := hone (if_pos hwarned)
      exact htally.record_other hroom _ (by rw [he]; decide)
    · rw [hnone (if_neg hwarned)]
      exact htally.pass _
  | error message =>
    by_cases hinput : input = "-"
    · rw [hnone (if_pos hinput)]
      simpa [failures, hinput] using htally.pass (inputName input)
    · obtain ⟨e, rfl, he⟩ := hone (if_neg hinput)
      have hname : inputName input = input := if_neg hinput
      have hlimit : 1 < Limits.current.maxLogEventsPerFile := by decide
      have hrecorded := htally.record_error hroom he (hnew hinput)
        (Nat.lt_of_le_of_lt (hfew hinput) hlimit)
      simpa [failures, hinput, hname] using hrecorded

theorem failures_sublist (input : String) (result : Except String Highlight) :
    ((failures input result).map Prod.fst).Sublist [input] := by
  cases result with
  | ok _ => exact List.nil_sublist _
  | error _ => exact List.Sublist.refl _

/-- Standard input is among the failures if it is the input and fails. -/
theorem dash_mem_failures_iff (input : String) (result : Except String Highlight) :
    "-" ∈ (failures input result).map Prod.fst ↔ input = "-" ∧ failures "-" result ≠ [] := by
  cases result with
  | ok _ => exact iff_of_false List.not_mem_nil fun h => h.2 rfl
  | error _ => simp [failures, eq_comm]

/-- Dealing with one more input. -/
theorem Progress.step {service : Log.Service} {stdin : List UInt8} {done : List String}
    {failed : List (String × String)} {index : Nat}
    (h : Progress service options.language stdin done failed s) (hdone : Distinct done)
    (hnew : ∀ other ∈ done, Path.same other input = false)
    (hroom : done.length < Limits.current.maxErrorCollection)
    (hrun : processInput world options scanner s index input = .ok s') :
    ∃ more, Progress service options.language stdin (done ++ [input]) (failed ++ more) s' := by
  obtain ⟨c, hactive, htally⟩ := h.collected
  obtain ⟨result, s₁, hinput, hactive', hstdin', hcount, hprinted⟩ := processInput_eq_ok hrun
  have hbegun : (s.logging.beginFile (inputName input) index).active =
      some ⟨service, c.beginFile (inputName input)⟩ := by
    rw [Logging.beginFile, hactive]
    rfl
  obtain ⟨⟨⟨events, hevents, hrecorded⟩, hquiet, hfailures⟩, hstdin⟩ :=
    highlightInput_handled hinput hbegun rfl
  have hfailing : ∀ name ∈ (failed.map Prod.fst).filter (· ≠ "-"), Path.same name input = false :=
    fun name hname => hnew name (h.among.subset (List.mem_of_mem_filter hname))
  have hnames : (done.map inputName).length < Limits.current.maxErrorCollection := by
    rwa [List.length_map]
  have htally := tally_input (htally.beginFile (inputName input)) hnames (fun _ => hfailing)
    (fun _ => countP_inputName_le hdone hnew) hevents
  refine ⟨failures input result, ?_, ?_, ?_, ⟨_, hactive'.trans hrecorded, ?_⟩, ?_, ?_⟩
  · rw [hcount, hfailures, List.length_append, ← h.count]
  · rw [List.map_append]
    exact h.among.append (failures_sublist input result)
  · rw [hprinted, hquiet, List.map_append, ← h.printed]
    rfl
  · rw [List.map_append, List.map_append, List.filter_append]
    exact htally.of_perm (List.perm_append_singleton _ _).symm List.perm_append_comm
  · intro hdash
    obtain ⟨hbefore, hinput⟩ := not_or.mp (List.mem_append.not.mp hdash)
    rw [if_neg fun heq => hinput (List.mem_singleton.mpr heq.symm)] at hstdin
    rw [hstdin', hstdin]
    exact h.unread hbefore
  · rw [List.map_append, List.mem_append, List.mem_append, dash_mem_failures_iff, h.dash,
      List.mem_singleton]
    by_cases hinput : input = "-"
    · have hbefore : "-" ∉ done := fun hmem => by
        have hdash := hnew "-" hmem
        rw [hinput, Path.same_refl] at hdash
        cases hdash
      have hread : s.stdin = stdin := h.unread hbefore
      rw [if_pos hinput] at hstdin
      have hfails : failures "-" result ≠ [] ↔ stdinFails options.language stdin = true := by
        rw [Ne, hstdin, ← hread, Bool.not_eq_false]
      simp [hbefore, hinput, hfails]
    · simp [hinput, Ne.symm hinput]

/-- Dealing with all inputs that are left. -/
theorem Progress.run {service : Log.Service} {stdin : List UInt8} {done inputs : List String}
    {failed : List (String × String)} {index : Nat}
    (h : Progress service options.language stdin done failed s)
    (hdistinct : Distinct (done ++ inputs))
    (hroom : (done ++ inputs).length ≤ Limits.current.maxErrorCollection)
    (hrun : processInputs world options scanner s index inputs = .ok s') :
    ∃ failed', Progress service options.language stdin (done ++ inputs) failed' s' := by
  induction inputs generalizing done failed s index with
  | nil =>
    cases hrun
    rw [List.append_nil]
    exact ⟨failed, h⟩
  | cons input inputs ih =>
    obtain ⟨s₁, hfirst, hrest⟩ := bind_eq_ok hrun
    obtain ⟨hdone, -, hnew⟩ := List.pairwise_append.mp hdistinct
    have hlength := hroom
    rw [List.length_append, List.length_cons] at hlength
    obtain ⟨more, hstep⟩ := h.step hdone (fun other hother => hnew other hother input List.mem_cons_self)
      (by omega) hfirst
    rw [List.append_cons] at hdistinct hroom ⊢
    exact ih hstep hdistinct hroom hrest

/-! ## Setting up -/

/-- Logging that has just been set up has collected nothing and complained of
nothing. -/
structure Fresh (logging : Logging) : Prop where
  active : ∃ service, logging.active = some ⟨service, .empty⟩
  quiet : logging.output.complaints = []

theorem fresh_activate {l l' : Logging} {service : Log.Service}
    (h : l.activate service = .ok l') (hquiet : l.output.complaints = []) : Fresh l' := by
  unfold Logging.activate at h
  split at h
  · cases h
  · cases h
    exact ⟨⟨service, rfl⟩, (Log.Service.complaints_log ..).trans hquiet⟩

theorem Fresh.write {l : Logging} (h : Fresh l) {text : String} {c : Char}
    (hhead : text.toList.head? = some c) (hc : c ≠ 'e') : Fresh (l.write text) :=
  ⟨h.active, (Log.Output.complaints_write_of_head hhead hc _).trans h.quiet⟩

theorem Fresh.diagnosed {l : Logging} (h : Fresh l) (minimum : Level) :
    Fresh (if minimum = .debug then l.write l.diagnostics else l) := by
  have hhead : l.diagnostics.toList.head? = some '=' := by
    unfold Logging.diagnostics
    iterate 5 refine head?_toList_append ?_ _
    rfl
  split
  · exact h.write hhead (by decide)
  · exact h

theorem fresh_activateBackend {l l' : Logging} {minimum : Level}
    (h : activateBackend l minimum = .ok l') (hquiet : l.output.complaints = []) : Fresh l' := by
  unfold activateBackend at h
  simp only [] at h
  split at h
  · exact fresh_activate h hquiet
  next specification _ =>
  refine fresh_activate h ?_
  split
  · exact hquiet
  next hwarnings =>
  have hhead : (String.join (specification.errors.map (·.warning))).toList.head? = some 'w' := by
    cases herrors : specification.errors with
    | nil => exact absurd (by rw [herrors]; rfl) hwarnings
    | cons e errors =>
      rw [List.map_cons, String.join_cons, Log.SpecificationError.warning]
      iterate 3 refine head?_toList_append ?_ _
      rfl
  exact (Log.Output.complaints_write_of_head hhead (by decide) _).trans hquiet

theorem fresh_setUpLogging {chosen : LoggingPreferences} {logging : Logging}
    (h : setUpLogging world chosen = .ok logging) : Fresh logging := by
  obtain ⟨l, hchosen, h⟩ := bind_eq_ok h
  have hquiet : l.output.complaints = [] := by
    cases hchosen
    rfl
  simp only [] at h
  split at h
  · obtain ⟨l', hactive, h⟩ := bind_eq_ok h
    unfold Logging.activateConfigured at hactive
    rw [Limits.loggingFlaw?_current] at hactive
    cases h
    exact (fresh_activate hactive hquiet).diagnosed _
  · rw [Limits.loggingFlaw?_current] at h
    obtain ⟨l', hactive, h⟩ := bind_eq_ok h
    cases h
    exact (fresh_activateBackend hactive hquiet).diagnosed _

/-! ## The report -/

theorem rendered_write (o : Log.Output) (text : String) :
    (o.write text).rendered = o.rendered ++ text := by
  simp [Log.Output.rendered, Log.Output.write, Log.Chunk.render]

/-- The closing report is written if there was more than one input or any failed. -/
theorem rendered_close (options : Options) {s : State} {a : ActiveLogging}
    (h : s.logging.active = some a) :
    (close options s).logging.output.rendered = s.logging.output.rendered ++
      if 1 < options.files.length ∨ 0 < s.failures then a.collector.report else "" := by
  simp only [close, Logging.report?, h, Option.map_some, Bool.or_eq_true, decide_eq_true_eq]
  split
  · exact rendered_write ..
  · exact (String.append_empty ..).symm

theorem failures_close (options : Options) (s : State) :
    (close options s).failures = s.failures ∧ (close options s).stdout = s.stdout := by
  unfold close
  split
  · split
    · exact ⟨rfl, rfl⟩
    · exact ⟨rfl, rfl⟩
  · exact ⟨rfl, rfl⟩

/-- What a run comes to whose logging is set up. -/
theorem run_eq {args : List String} {chosen : Preferences} {logging : Logging} {a : ActiveLogging}
    (hparsed : Options.parse args = .ok options) (hchosen : preferences world options = .ok chosen)
    (hlogging : setUpLogging world chosen.logging = .ok logging)
    (hrun : processInputs world options chosen.scanner { logging, stdin := world.stdin } 0
      options.files = .ok s) (hactive : s.logging.active = some a) :
    run args world = .ok
      { exit := if 0 < s.failures then 1 else 0
        stdout := s.stdout
        stderr := s.logging.output.rendered ++
          if 1 < options.files.length ∨ 0 < s.failures then a.collector.report else "" } := by
  have houtcome : run args world = .ok
      ⟨if 0 < (close options s).failures then 1 else 0, (close options s).stdout,
        (close options s).logging.output.rendered⟩ := by
    simp only [run, hparsed, runOptions, hchosen, hlogging, hrun]
    rfl
  rw [houtcome, rendered_close options hactive, (failures_close options s).1,
    (failures_close options s).2]

/-- Each that is not standard input, and standard input if it is among them. -/
theorem length_eq_of_nodup {inputs : List String} (h : inputs.Nodup) :
    (inputs.filter (· ≠ "-")).length + (if "-" ∈ inputs then 1 else 0) = inputs.length := by
  have hsplit := List.length_eq_countP_add_countP (l := inputs) (· ≠ "-")
  rw [hsplit, List.countP_eq_length_filter, ← h.count]
  refine congrArg _ (List.countP_congr fun input _ => ?_)
  simp

/-- The closing report and the outcome of a run, for at most 2000 inputs with
different paths. What is written to standard error has one complaint for each input
that failed, and no other; the program exits with 1 if there is one and else with
0. If the closing report is written, it ends with the figures of the collector,
and these count all that failed, except for standard input when no language is
given for it or when it is not UTF-8. This holds of every run that deals with all
of its inputs; and a run does, if every text that is read has at most 2³² − 2
characters. -/
theorem run_report {args : List String} {world : World} {options : Options} {chosen : Preferences}
    {logging : Logging} (hparsed : Options.parse args = .ok options)
    (hchosen : preferences world options = .ok chosen)
    (hlogging : setUpLogging world chosen.logging = .ok logging)
    (hfew : options.files.length ≤ 2000) (hdistinct : Distinct options.files) :
    (∀ s, processInputs world options chosen.scanner { logging, stdin := world.stdin } 0
        options.files = .ok s →
      ∃ failed entries,
        run args world = .ok
          { exit := if failed = [] then 0 else 1
            stdout := s.stdout
            stderr := s.logging.output.rendered ++
              if 1 < options.files.length ∨ failed ≠ [] then
                entries ++ Collector.closingLine s.logging.summary
              else "" } ∧
        (failed.map Prod.fst).Sublist options.files ∧
        s.logging.output.complaints = failed.map complaint ∧
        s.logging.summary.failed +
          (if "-" ∈ options.files ∧ stdinFails options.language world.stdin = true then 1 else 0) =
          failed.length) ∧
    ((∀ input ∈ options.files, Fits world world.stdin input) →
      ∃ s, processInputs world options chosen.scanner { logging, stdin := world.stdin } 0
        options.files = .ok s) := by
  refine ⟨fun s hrun => ?_, fun hfits => exists_processInputs hfits options chosen.scanner 0⟩
  obtain ⟨⟨service, hactive⟩, hquiet⟩ := fresh_setUpLogging hlogging
  have hstart : Progress service options.language world.stdin [] [] { logging, stdin := world.stdin } :=
    ⟨rfl, List.Sublist.refl [], hquiet, ⟨.empty, hactive, .empty⟩, fun _ => rfl,
      iff_of_false List.not_mem_nil fun h => List.not_mem_nil h.1⟩
  obtain ⟨failed, hend⟩ := hstart.run hdistinct hfew hrun
  obtain ⟨c, hcollected, htally⟩ := hend.collected
  have hsummary : s.logging.summary = c.summary := by
    rw [Logging.summary, hcollected]
  have hcount := length_eq_of_nodup (hdistinct.nodup.sublist hend.among)
  refine ⟨failed, String.join (c.files.map Collector.fileReport), ?_, hend.among, hend.printed, ?_⟩
  · have hfailed : 0 < s.failures ↔ failed ≠ [] := by
      rw [hend.count, List.length_pos_iff]
    rw [run_eq hparsed hchosen hlogging hrun hcollected, hsummary]
    simp only [hfailed, ne_eq, ite_not]
    rfl
  · rw [hsummary, htally.failed, ← List.length_map Prod.fst, ← hcount]
    simp only [hend.dash]
    rfl

/-- What the program finds where there is nothing at all. -/
def World.nothing : World where
  files := ⟨fun _ => .error .notFound, fun _ => .error .notFound⟩
  stdin := []
  environment := []
  clock := ⟨"", ""⟩

/-- There is no file that could be too long. -/
theorem fits_nothing {input : String} (hfile : input ≠ "-") :
    Fits .nothing World.nothing.stdin input := by
  rw [Fits, if_neg hfile]
  intro size bytes text hcheck
  cases hcheck

/-- Two files that are not there are counted as two that failed. -/
theorem run_report_missing :
    ∃ options logging s, Options.parse ["a.1c", "b.1c"] = .ok options ∧
      preferences .nothing options = .ok {} ∧ setUpLogging .nothing {} = .ok logging ∧
      options.files.length ≤ 2000 ∧ Distinct options.files ∧
      (∀ input ∈ options.files, Fits .nothing World.nothing.stdin input) ∧
      processInputs .nothing options {} { logging, stdin := [] } 0 options.files = .ok s ∧
      s.logging.summary.failed = 2 ∧
      ∃ failed entries,
        run ["a.1c", "b.1c"] .nothing = .ok
          { exit := if failed = [] then 0 else 1
            stdout := s.stdout
            stderr := s.logging.output.rendered ++
              if 1 < options.files.length ∨ failed ≠ [] then
                entries ++ Collector.closingLine s.logging.summary
              else "" } ∧
        s.logging.output.complaints = failed.map complaint ∧
        failed.length = 2 := by
  have hparsed : Options.parse ["a.1c", "b.1c"] = .ok { files := ["a.1c", "b.1c"] } := by cbv
  have hdistinct : Distinct ["a.1c", "b.1c"] := by
    unfold Distinct
    decide
  have hfits : ∀ input ∈ ["a.1c", "b.1c"], Fits .nothing World.nothing.stdin input :=
    List.forall_mem_cons.mpr
      ⟨fits_nothing (by decide), List.forall_mem_singleton.mpr (fits_nothing (by decide))⟩
  have hchosen : preferences .nothing { files := ["a.1c", "b.1c"] } = .ok {} := rfl
  have hlogging : setUpLogging .nothing {} = .ok _ := rfl
  obtain ⟨hreport, hends⟩ := run_report hparsed hchosen hlogging (by decide) hdistinct
  obtain ⟨s, hrun⟩ := hends hfits
  obtain ⟨failed, entries, houtcome, -, hprinted, hcount⟩ := hreport s hrun
  have htwo : s.logging.summary.failed = 2 := by
    obtain rfl := Except.ok.inj hrun
    decide +kernel
  exact ⟨_, _, s, hparsed, hchosen, hlogging, by decide, hdistinct, hfits, hrun, htwo, failed, entries,
    houtcome, hprinted, hcount ▸ htwo⟩

/-- Standard input without a language is said to have failed, and not counted. -/
theorem run_report_stdin :
    ∃ s : State, run ["-"] .nothing = .ok
        { exit := 1
          stdout := ""
          stderr := s.logging.output.rendered ++ Collector.closingLine s.logging.summary } ∧
      s.logging.output.complaints = [.text "error: <stdin>: standard input needs --lang\n"] ∧
      s.logging.summary.failed = 0 := by
  have hparsed : Options.parse ["-"] = .ok { files := ["-"] } := by cbv
  obtain ⟨logging, s, a, hlogging, hrun, hactive, hfailures, hstdout, hreport, hprinted, hcount⟩ :
      ∃ logging s a, setUpLogging .nothing {} = .ok logging ∧
        processInputs .nothing { files := ["-"] } {} { logging, stdin := [] } 0 ["-"] = .ok s ∧
        s.logging.active = some a ∧ s.failures = 1 ∧ s.stdout = "" ∧
        a.collector.report = Collector.closingLine s.logging.summary ∧
        s.logging.output.complaints = [.text "error: <stdin>: standard input needs --lang\n"] ∧
        s.logging.summary.failed = 0 := by
    refine ⟨_, _, _, rfl, rfl, rfl, rfl, rfl, ?_, ?_, ?_⟩ <;> decide +kernel
  refine ⟨s, ?_, hprinted, hcount⟩
  rw [run_eq hparsed rfl hlogging hrun hactive, hfailures, hstdout, hreport]
  rfl

end Command

end Highlight1C
