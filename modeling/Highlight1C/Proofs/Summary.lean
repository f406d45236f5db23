import Highlight1C.Proofs.Collector
import Highlight1C.Proofs.Preferences

/-!
# The summary of a run

While a file is highlighted, an error is collected for it if that fails, a
warning if some of its characters are not recognised, and nothing else
(`highlightFile_collects`), whatever the preferences are. `Logging.Collects`
says of two states of logging that events of certain levels have been collected
between them; all of them are recorded for the file that is being worked on
(`Collects.recorded`).

So, when files with different paths are highlighted one after the other, the
collector has a file for each of them, with the events of its outcome
(`recorded_of_jobs`), and the summary counts the outcomes (`summary_of_jobs`).
There is room for the events of 2000 files, as each has one at most.
-/

namespace Highlight1C

open Log (Event Level Collector FileRecord Summary)

/-! ## What is collected -/

namespace Logging

/-- Between the two, events of these levels have been collected, in this order. -/
def Collects (levels : List Level) (l l' : Logging) : Prop :=
  ∃ postings, l' = l.postAll postings ∧
    (postings.filter (·.collect)).map (·.event.level) = levels

variable {l l₁ l₂ : Logging} {levels levels₁ levels₂ : List Level}

theorem Collects.trans (h₁ : Collects levels₁ l l₁) (h₂ : Collects levels₂ l₁ l₂) :
    Collects (levels₁ ++ levels₂) l l₂ := by
  obtain ⟨ps, rfl, rfl⟩ := h₁
  obtain ⟨qs, rfl, rfl⟩ := h₂
  refine ⟨ps ++ qs, (l.postAll_append ps qs).symm, ?_⟩
  rw [List.filter_append, List.map_append]

/-- Asides are not collected. -/
theorem Posts.collects (h : Posts Posting.Aside l l₁) : Collects [] l l₁ := by
  obtain ⟨ps, heq, haside⟩ := h
  have hnone : ps.filter (·.collect) = [] := by
    rw [List.filter_eq_nil_iff]
    intro p hp
    simp [(haside p hp).uncollected]
  exact ⟨ps, heq, by rw [hnone, List.map_nil]⟩

theorem collects_error (l : Logging) (code : Log.Code) (message : String) (span : Option Span)
    (values : List (String × String)) : Collects [.error] l (l.error code message span values) :=
  ⟨[⟨true, { Event.error code message with span }, values⟩], rfl, rfl⟩

theorem collects_warning (l : Logging) (code : Log.Code) (message : String) (span : Option Span)
    (values : List (String × String)) :
    Collects [.warning] l (l.warning (some code) message span values) :=
  ⟨[⟨true, { Event.codedWarning code message with span }, values⟩], rfl, rfl⟩

/-! ## Where it is recorded -/

theorem context_post (l : Logging) (collect : Bool) (e : Event) (values : List (String × String)) :
    (l.post collect e values).context = l.context := by
  unfold post
  split <;> rfl

theorem active_post {service : Log.Service} {c : Collector} {file : FileContext}
    (hactive : l.active = some ⟨service, c⟩) (hcontext : l.context = some file) (collect : Bool)
    (e : Event) (values : List (String × String)) :
    (l.post collect e values).active =
      some ⟨service, if collect then c.record file.path (l.dress e values) else c⟩ := by
  simp only [post, hactive, collected, hcontext]

/-- What is collected is recorded for the file that is being worked on. -/
theorem Collects.recorded {service : Log.Service} {c : Collector} {file : FileContext}
    (h : Collects levels l l₁) (hactive : l.active = some ⟨service, c⟩)
    (hcontext : l.context = some file) :
    ∃ events : List Event, events.map (·.level) = levels ∧
      l₁.active = some ⟨service, events.foldl (fun c e => c.record file.path e) c⟩ := by
  obtain ⟨ps, rfl, rfl⟩ := h
  induction ps generalizing l c with
  | nil => exact ⟨[], rfl, hactive⟩
  | cons p ps ih =>
    have hactive' := active_post hactive hcontext p.collect p.event p.values
    have hcontext' := (context_post l p.collect p.event p.values).trans hcontext
    obtain ⟨events, hlevels, hrest⟩ := ih hactive' hcontext'
    cases hcollect : p.collect with
    | false =>
      rw [hcollect] at hrest
      refine ⟨events, ?_, ?_⟩
      · simpa [hcollect] using hlevels
      · simpa [postAll, hcollect] using hrest
    | true =>
      rw [hcollect] at hrest
      refine ⟨l.dress p.event p.values :: events, ?_, ?_⟩
      · simp [hcollect, level_dress, hlevels]
      · simpa [postAll, hcollect] using hrest

end Logging

open Logging

/-! ## Outcomes -/

/-- What comes of highlighting a file. -/
abbrev Outcome := Except HighlightError Highlight

namespace Outcome

/-- Whether it failed. -/
def isFailed : Outcome → Bool
  | .error _ => true
  | .ok _ => false

/-- Whether it succeeded, with characters that no rule recognised. -/
def isWarned : Outcome → Bool
  | .error _ => false
  | .ok h => h.hasErrors

/-- Whether it succeeded with all characters recognised. -/
def isClean (o : Outcome) : Bool :=
  !isFailed o && !isWarned o

/-- The levels of the events that are collected for it. -/
def levels (o : Outcome) : List Level :=
  if isFailed o then [.error] else if isWarned o then [.warning] else []

theorem length_levels (o : Outcome) : (levels o).length ≤ 1 := by
  unfold levels
  split
  · exact Nat.le_refl 1
  split
  · exact Nat.le_refl 1
  · exact Nat.zero_le 1

end Outcome

/-- The level of the event that is collected when a file cannot be read. -/
def SourceFile.levels : Except FileError SourceFile → List Level
  | .error _ => [.error]
  | .ok _ => []

/-- A failure to read a file is collected as one error. -/
theorem SourceFile.load_collects {fs : FileSystem} {path : String} {timed : Bool}
    {logging logging' : Logging} {result : Except FileError SourceFile}
    (h : load fs path timed logging = (result, logging')) :
    Collects (levels result) logging logging' := by
  have hstart := (posts_debug logging "Starting file processing" none [("file", path)]).collects
  simp only [load] at h
  split at h
  · cases h
    exact hstart.trans (collects_error ..)
  split at h
  · cases h
    exact hstart.trans (collects_error ..)
  split at h
  · cases h
    exact hstart.trans (collects_error ..)
  · cases h
    have hread : Log.Code.fileDone ≠ .internalError := by decide
    refine hstart.trans (Posts.collects (Posts.trans ?_ (posts_success hread _ _ _)))
    split
    · exact posts_debug ..
    · exact .refl _ _

/-- Characters that no rule recognised are collected as one warning. -/
theorem reportErrors_collects (language : Language) (stream : TokenStream) (logging : Logging) :
    Collects (if stream.tokens.any (·.kind == .error) then [.warning] else []) logging
      (reportErrors language stream logging) := by
  unfold reportErrors
  cases herrors : stream.errors with
  | nil =>
    have hnone : ¬ stream.tokens.any (·.kind == .error) = true := by
      rw [TokenStream.errors, List.filter_eq_nil_iff] at herrors
      rw [List.any_eq_true]
      rintro ⟨t, ht, hkind⟩
      exact herrors t ht hkind
    rw [if_neg hnone]
    exact (Posts.refl _ _).collects
  | cons first others =>
    have hfirst : first ∈ stream.errors := by
      rw [herrors]
      exact List.mem_cons_self
    obtain ⟨hmem, hkind⟩ := List.mem_filter.mp hfirst
    rw [if_pos (List.any_eq_true.mpr ⟨first, hmem, hkind⟩)]
    exact collects_warning ..

theorem highlightSource_collects {language : Language} {source : List Char}
    {preferences : ScannerPreferences} {logging logging' : Logging} {outcome : Outcome}
    (h : highlightSource language source preferences logging = .ok (outcome, logging')) :
    Collects (Outcome.levels outcome) logging logging' := by
  obtain ⟨rfl, rfl⟩ := highlightSource_eq_ok h
  have hscan : Posts Posting.Aside logging (loggingOfScan language source preferences logging) := by
    have hfinal := Session.posts_final language preferences preferences.collectMetrics source logging
    refine Posts.trans hfinal ?_
    refine Posts.trans (posts_success ?_ _ _ _) (posts_success ?_ _ _ _)
    · show Log.Code.scanDone ≠ .internalError
      decide
    · show Log.Code.streamValidated ≠ .internalError
      decide
  exact hscan.collects.trans (reportErrors_collects language (language.stream source) _)

/-- What is collected while a file is highlighted tells how that ends. -/
theorem highlightFile_collects {fs : FileSystem} {path : String} {language : Option Language}
    {preferences : ScannerPreferences} {logging logging' : Logging} {outcome : Outcome}
    (h : highlightFile fs path language preferences logging = .ok (outcome, logging')) :
    Collects (Outcome.levels outcome) logging logging' := by
  unfold highlightFile at h
  split at h
  · cases h
    exact collects_error ..
  next language _ =>
  have hstart := (posts_debug logging "Highlighting file" none
    [("file", path), ("language", language.name)]).collects
  simp only [] at h
  split at h
  · next hload =>
    cases h
    exact hstart.trans (SourceFile.load_collects hload)
  next file loaded hload =>
  obtain ⟨⟨inner, scanned⟩, hsource, h⟩ := bind_eq_ok h
  have hcollects := hstart.trans
    ((SourceFile.load_collects hload).trans (highlightSource_collects hsource))
  cases inner with
  | error _ =>
    cases h
    exact hcollects
  | ok highlight =>
    have hdone : Log.Code.fileDone ≠ .internalError := by decide
    have hnews := (posts_success hdone scanned "File highlighted"
      [("file", path), ("language", language.name),
       ("tokens", toString highlight.tokens.length),
       ("duration_ms", scanned.clock.elapsed)]).collects
    cases h
    have hall := hcollects.trans hnews
    rw [List.append_nil] at hall
    exact hall

/-! ## Files one after the other -/

/-- A file that is to be highlighted: where it is, its number, and what is
chosen for it. -/
structure Job where
  path : String
  id : Nat
  language : Option Language
  preferences : ScannerPreferences

/-- Highlights a file; what is collected meanwhile is collected for it. -/
def Job.run (fs : FileSystem) (job : Job) (logging : Logging) :
    Except Fault (Outcome × Logging) := do
  let logging := logging.beginFile job.path job.id
  let (outcome, logging) ← highlightFile fs job.path job.language job.preferences logging
  return (outcome, logging.endFile)

/-- Highlights files one after the other. -/
def runJobs (fs : FileSystem) : List Job → Logging → Except Fault (List Outcome × Logging)
  | [], logging => .ok ([], logging)
  | job :: jobs, logging => do
    let (outcome, logging) ← job.run fs logging
    let (outcomes, logging) ← runJobs fs jobs logging
    return (outcome :: outcomes, logging)

theorem Job.run_eq_ok {fs : FileSystem} {job : Job} {logging logging' : Logging} {outcome : Outcome}
    (h : job.run fs logging = .ok (outcome, logging')) :
    ∃ highlighted, highlightFile fs job.path job.language job.preferences
      (logging.beginFile job.path job.id) = .ok (outcome, highlighted) ∧
        logging' = highlighted.endFile := by
  obtain ⟨⟨_, highlighted⟩, hrun, h⟩ := bind_eq_ok h
  cases h
  exact ⟨highlighted, hrun, rfl⟩

theorem runJobs_cons_eq_ok {fs : FileSystem} {job : Job} {jobs : List Job}
    {logging logging' : Logging} {outcomes : List Outcome}
    (h : runJobs fs (job :: jobs) logging = .ok (outcomes, logging')) :
    ∃ outcome between others, job.run fs logging = .ok (outcome, between) ∧
      runJobs fs jobs between = .ok (others, logging') ∧ outcomes = outcome :: others := by
  obtain ⟨⟨outcome, between⟩, hfirst, h⟩ := bind_eq_ok h
  obtain ⟨⟨others, _⟩, hrest, h⟩ := bind_eq_ok h
  cases h
  exact ⟨outcome, between, others, hfirst, hrest, rfl⟩

/-- A file that is new to the collector is added to it with the events of its
outcome, as long as there is room for one event. -/
theorem Job.run_recorded {fs : FileSystem} {job : Job} {logging logging' : Logging}
    {outcome : Outcome} {service : Log.Service} {c : Collector}
    (h : job.run fs logging = .ok (outcome, logging'))
    (hactive : logging.active = some ⟨service, c⟩) (hnew : Collector.New job.path c.files)
    (hroom : c.total + 1 ≤ Limits.current.maxErrorCollection) :
    ∃ r c', r.path = job.path ∧ r.events.map (·.level) = Outcome.levels outcome ∧
      logging'.active = some ⟨service, c'⟩ ∧ c'.files.Perm (r :: c.files) := by
  obtain ⟨highlighted, hrun, rfl⟩ := run_eq_ok h
  have hbegun : (logging.beginFile job.path job.id).active =
      some ⟨service, c.beginFile job.path⟩ := by
    simp only [beginFile, hactive, Option.map_some]
  have hcontext : (logging.beginFile job.path job.id).context = some ⟨job.path, job.id⟩ := rfl
  obtain ⟨events, hlevels, hrecorded⟩ := (highlightFile_collects hrun).recorded hbegun hcontext
  have hlength : events.length ≤ 1 := by
    have hone := Outcome.length_levels outcome
    rwa [← hlevels, List.length_map] at hone
  have hfile : events.length ≤ Limits.current.maxLogEventsPerFile := by
    have hlimit : 1 ≤ Limits.current.maxLogEventsPerFile := by decide
    omega
  exact ⟨⟨job.path, events⟩, _, rfl, hlevels, hrecorded,
    Collector.files_perm_of_new hnew hfile (by omega)⟩

/-- The collector has a file for each job, with the events of its outcome, next
to those that it had before. -/
theorem recorded_of_jobs {fs : FileSystem} {jobs : List Job} {logging logging' : Logging}
    {outcomes : List Outcome} {service : Log.Service} {c : Collector}
    (h : runJobs fs jobs logging = .ok (outcomes, logging'))
    (hactive : logging.active = some ⟨service, c⟩)
    (hpaths : jobs.Pairwise fun a b => Path.same a.path b.path = false)
    (hnew : ∀ job ∈ jobs, Collector.New job.path c.files)
    (hroom : c.total + jobs.length ≤ Limits.current.maxErrorCollection) :
    ∃ records c', records.map (·.path) = jobs.map (·.path) ∧
      records.map (fun r => r.events.map (·.level)) = outcomes.map Outcome.levels ∧
      logging'.active = some ⟨service, c'⟩ ∧ c'.files.Perm (records ++ c.files) := by
  induction jobs generalizing logging outcomes c with
  | nil =>
    cases h
    exact ⟨[], c, rfl, rfl, hactive, .refl _⟩
  | cons job jobs ih =>
    obtain ⟨outcome, between, others, hfirst, hrest, rfl⟩ := runJobs_cons_eq_ok h
    obtain ⟨hother, hpaths⟩ := List.pairwise_cons.mp hpaths
    rw [List.length_cons] at hroom
    obtain ⟨r, c₁, hpath, hlevels, hactive₁, hfiles⟩ :=
      Job.run_recorded hfirst hactive (hnew job List.mem_cons_self) (by omega)
    have hnew₁ : ∀ job' ∈ jobs, Collector.New job'.path c₁.files := by
      intro job' hjob' r' hr'
      rcases List.mem_cons.mp (hfiles.mem_iff.mp hr') with rfl | hr'
      · rw [hpath, Path.same_comm]
        exact hother job' hjob'
      · exact hnew job' (List.mem_cons_of_mem job hjob') r' hr'
    have htotal : c₁.total ≤ c.total + 1 := by
      have hone := Outcome.length_levels outcome
      rw [← hlevels, List.length_map] at hone
      rw [Collector.total_eq_of_perm hfiles, List.map_cons, List.sum_cons,
        ← Collector.total_eq_of_perm (.refl c.files)]
      omega
    obtain ⟨records, c', hrecordPaths, hrecordLevels, hactive', hfiles'⟩ :=
      ih hrest hactive₁ hpaths hnew₁ (by omega)
    refine ⟨r :: records, c', ?_, ?_, hactive', ?_⟩
    · rw [List.map_cons, List.map_cons, hpath, hrecordPaths]
    · rw [List.map_cons, List.map_cons, hlevels, hrecordLevels]
    · exact hfiles'.trans ((hfiles.append_left records).trans List.perm_middle)

/-! ## Figures -/

/-- The figures for files with certain outcomes, one event for each that failed
or was warned about. -/
def Outcome.summary (outcomes : List Outcome) : Summary where
  files := outcomes.length
  clean := outcomes.countP isClean
  failed := outcomes.countP isFailed
  warned := outcomes.countP isWarned
  errors := outcomes.countP isFailed
  warnings := outcomes.countP isWarned

theorem FileRecord.errorCount_eq (r : FileRecord) :
    r.errorCount = (r.events.map (·.level)).count .error := by
  rw [List.count, List.countP_map]
  rfl

theorem FileRecord.warningCount_eq (r : FileRecord) :
    r.warningCount = (r.events.map (·.level)).count .warning := by
  rw [List.count, List.countP_map]
  rfl

/-- A file counts as its outcome. -/
theorem addFile_of_levels (s : Summary) {r : FileRecord} {o : Outcome}
    (h : r.events.map (·.level) = Outcome.levels o) :
    Collector.addFile s r =
      { files := s.files + 1
        clean := s.clean + if Outcome.isClean o then 1 else 0
        failed := s.failed + if Outcome.isFailed o then 1 else 0
        warned := s.warned + if Outcome.isWarned o then 1 else 0
        errors := s.errors + if Outcome.isFailed o then 1 else 0
        warnings := s.warnings + if Outcome.isWarned o then 1 else 0 } := by
  rw [Collector.addFile_eq, FileRecord.errorCount_eq, FileRecord.warningCount_eq, h]
  cases o with
  | error e => simp [Outcome.levels, Outcome.isClean, Outcome.isFailed, Outcome.isWarned]
  | ok highlight =>
    cases hwarned : highlight.hasErrors <;>
      simp [Outcome.levels, Outcome.isClean, Outcome.isFailed, Outcome.isWarned, hwarned]

theorem foldl_addFile_of_levels (s : Summary) {records : List FileRecord}
    {outcomes : List Outcome}
    (h : records.map (fun r => r.events.map (·.level)) = outcomes.map Outcome.levels) :
    records.foldl Collector.addFile s =
      { files := s.files + outcomes.length
        clean := s.clean + outcomes.countP Outcome.isClean
        failed := s.failed + outcomes.countP Outcome.isFailed
        warned := s.warned + outcomes.countP Outcome.isWarned
        errors := s.errors + outcomes.countP Outcome.isFailed
        warnings := s.warnings + outcomes.countP Outcome.isWarned } := by
  induction records generalizing s outcomes with
  | nil =>
    obtain rfl : outcomes = [] := List.map_eq_nil_iff.mp h.symm
    rfl
  | cons r records ih =>
    cases outcomes with
    | nil => cases h
    | cons o outcomes =>
      obtain ⟨hr, hrest⟩ := List.cons.inj h
      rw [List.foldl_cons, addFile_of_levels s hr, ih _ hrest]
      simp only [List.length_cons, List.countP_cons, Nat.add_assoc, Nat.add_comm 1,
        Nat.add_comm (ite _ _ _)]

/-! ## Runs come to their end -/

/-- If the file at a path passes its check and can be read as a text, the text has
at most 2³² − 2 characters. -/
def FileSystem.Fits (fs : FileSystem) (path : String) : Prop :=
  ∀ size bytes text, SourceFile.check fs path = .ok size → fs.read path = .ok bytes →
    Text.decode (SourceFile.dropMark bytes).1 = .ok text → text.length ≤ sourceBound

theorem Text.length_decodeFrom {done text : List Char} {offset : Nat} {bytes : List UInt8}
    (h : decodeFrom done offset bytes = .ok text) : text.length ≤ done.length + bytes.length := by
  fun_induction decodeFrom done offset bytes with
  | case1 =>
    cases h
    simp
  | case2 => cases h
  | case3 done offset a rest c more _ ih =>
    have hrest := ih h
    rw [List.length_cons, List.length_drop] at hrest
    rw [List.length_cons]
    omega

/-- There are no more characters than bytes. -/
theorem Text.length_decode {bytes : List UInt8} {text : List Char} (h : decode bytes = .ok text) :
    text.length ≤ bytes.length := by
  simpa using length_decodeFrom h

theorem SourceFile.length_dropMark (bytes : List UInt8) :
    (dropMark bytes).1.length ≤ bytes.length := by
  unfold dropMark
  split
  · rw [List.length_drop]
    exact Nat.sub_le _ _
  · exact Nat.le_refl _

/-- A file from which no more is read than its status says is below the limit for
files, and so fits. -/
theorem FileSystem.fits_of_length_le {fs : FileSystem} {path : String}
    (h : ∀ status bytes, fs.status path = .ok status → fs.read path = .ok bytes →
      bytes.length ≤ status.size) : fs.Fits path := by
  intro size bytes text hcheck hread hdecode
  have hlimit : Limits.current.maxFileSize = 52428800 := rfl
  have hbound : sourceBound = 0xfffffffe := rfl
  unfold SourceFile.check at hcheck
  split at hcheck
  · cases hcheck
  next status hstatus =>
  split at hcheck
  · cases hcheck
  split at hcheck
  · cases hcheck
  next hsize =>
  have hbytes := h status bytes hstatus hread
  have hbody := SourceFile.length_dropMark bytes
  have htext := Text.length_decode hdecode
  omega

theorem SourceFile.length_load {fs : FileSystem} {path : String} {timed : Bool}
    {logging logging' : Logging} {file : SourceFile} (hfits : fs.Fits path)
    (h : load fs path timed logging = (.ok file, logging')) : file.text.length ≤ sourceBound := by
  simp only [load] at h
  split at h
  · cases h
  next size hcheck =>
  split at h
  · cases h
  next bytes hread =>
  split at h
  · cases h
  next text hdecode =>
  cases h
  exact hfits size bytes text hcheck hread hdecode

theorem exists_highlightFile {fs : FileSystem} {path : String} (hfits : fs.Fits path)
    (language : Option Language) (preferences : ScannerPreferences) (logging : Logging) :
    ∃ outcome logging',
      highlightFile fs path language preferences logging = .ok (outcome, logging') := by
  unfold highlightFile
  split
  · exact ⟨_, _, rfl⟩
  next language _ =>
  simp only []
  split
  · exact ⟨_, _, rfl⟩
  next file loaded hload =>
  have hsize := SourceFile.length_load hfits hload
  obtain ⟨highlight, scanned, hsource⟩ : ∃ highlight scanned,
      highlightSource language file.text preferences loaded = .ok (.ok highlight, scanned) := by
    obtain ⟨highlight, scanned, hsource, -⟩ := highlightSource_eq hsize preferences loaded
    exact ⟨highlight, scanned, hsource⟩
  rw [hsource]
  exact ⟨_, _, rfl⟩

theorem exists_runJobs {fs : FileSystem} {jobs : List Job} (hfits : ∀ job ∈ jobs, fs.Fits job.path)
    (logging : Logging) :
    ∃ outcomes logging', runJobs fs jobs logging = .ok (outcomes, logging') := by
  induction jobs generalizing logging with
  | nil => exact ⟨[], logging, rfl⟩
  | cons job jobs ih =>
    obtain ⟨outcome, highlighted, hrun⟩ := exists_highlightFile (hfits job List.mem_cons_self)
      job.language job.preferences (logging.beginFile job.path job.id)
    obtain ⟨outcomes, logging', hrest⟩ :=
      ih (fun job' hjob' => hfits job' (List.mem_cons_of_mem job hjob')) highlighted.endFile
    refine ⟨outcome :: outcomes, logging', ?_⟩
    have hfirst : job.run fs logging = .ok (outcome, highlighted.endFile) := by
      simp only [Job.run, hrun]
      rfl
    simp only [runJobs, hfirst, bind, Except.bind, hrest]
    rfl

/-! ## The summary -/

/-- When at most 2000 files with different paths are highlighted one after the
other, starting with a collector in which there is nothing, the summary counts
what came of them: each that failed is a failed file with one error, each in
which characters were not recognised is a file with one warning, and all others
are clean. This holds of every run that comes to its end, whatever the files and
the preferences are; and a run does, if every text that is read has at most
2³² − 2 characters, which is so unless a file has grown since it was checked
(`FileSystem.fits_of_length_le`). -/
theorem summary_of_jobs (fs : FileSystem) {jobs : List Job} {logging : Logging}
    {service : Log.Service} (hactive : logging.active = some ⟨service, .empty⟩)
    (hroom : jobs.length ≤ 2000)
    (hpaths : jobs.Pairwise fun a b => Path.same a.path b.path = false) :
    (∀ outcomes logging', runJobs fs jobs logging = .ok (outcomes, logging') →
      outcomes.length = jobs.length ∧ logging'.summary = Outcome.summary outcomes) ∧
    ((∀ job ∈ jobs, fs.Fits job.path) →
      ∃ outcomes logging', runJobs fs jobs logging = .ok (outcomes, logging')) := by
  refine ⟨fun outcomes logging' h => ?_, fun hfits => exists_runJobs hfits logging⟩
  have hnew : ∀ job ∈ jobs, Collector.New job.path Collector.empty.files :=
    fun _ _ _ hr => absurd hr List.not_mem_nil
  have htotal : Collector.empty.total + jobs.length ≤ Limits.current.maxErrorCollection := by
    have hempty : Collector.empty.total = 0 := rfl
    have hlimit : Limits.current.maxErrorCollection = 2000 := rfl
    omega
  obtain ⟨records, c, hrecordPaths, hlevels, hactive', hfiles⟩ :=
    recorded_of_jobs h hactive hpaths hnew htotal
  have hfiles : c.files.Perm records := by
    rwa [show Collector.empty.files = [] from rfl, List.append_nil] at hfiles
  refine ⟨?_, ?_⟩
  · have hcount := congrArg List.length hlevels
    have hjobs := congrArg List.length hrecordPaths
    rw [List.length_map, List.length_map] at hcount hjobs
    rw [← hcount, hjobs]
  · have hsummary : logging'.summary = c.summary := by
      rw [Logging.summary, hactive']
    rw [hsummary, Collector.summary_eq_of_perm hfiles, foldl_addFile_of_levels {} hlevels]
    simp only [Outcome.summary, Nat.zero_add]

/-- Two files of one byte: `~`, which no rule recognises in module code, and a
letter. -/
def FileSystem.sample : FileSystem where
  status path :=
    if path = "a.1c" ∨ path = "b.bsl" then .ok ⟨true, 1⟩ else .error .notFound
  read path :=
    if path = "a.1c" then .ok [0x7e] else if path = "b.bsl" then .ok [0x61] else .error .notFound

/-- Both files of the sample, one that is not there and one whose language is not
known. -/
def Job.sample : List Job :=
  ["a.1c", "b.bsl", "c.1c", "d.txt"].map fun path => ⟨path, 0, none, {}⟩

/-- Logging that has been set up, with nothing collected. -/
def Logging.silent : Logging where
  clock := ⟨"", ""⟩
  active := some ⟨⟨.silent, .warning⟩, .empty⟩

theorem FileSystem.fits_sample (path : String) : FileSystem.sample.Fits path := by
  refine fits_of_length_le fun status bytes hstatus hread => ?_
  simp only [sample] at hstatus hread
  split at hstatus
  · cases hstatus
    split at hread
    · cases hread
      exact Nat.le_refl 1
    split at hread
    · cases hread
      exact Nat.le_refl 1
    · cases hread
  · cases hstatus

/-- A file with a character that is not recognised, a clean one and two that
fail. -/
theorem summary_of_jobs_sample :
    Job.sample.length ≤ 2000 ∧
    (Job.sample.Pairwise fun a b => Path.same a.path b.path = false) ∧
    ∃ outcomes logging', runJobs .sample Job.sample .silent = .ok (outcomes, logging') ∧
      outcomes.length = Job.sample.length ∧ logging'.summary = Outcome.summary outcomes := by
  have hroom : Job.sample.length ≤ 2000 := by decide
  have hpaths : Job.sample.Pairwise fun a b => Path.same a.path b.path = false := by decide
  have hactive : Logging.silent.active = some ⟨⟨.silent, .warning⟩, .empty⟩ := rfl
  obtain ⟨hsummary, hends⟩ := summary_of_jobs .sample hactive hroom hpaths
  obtain ⟨outcomes, logging', hrun⟩ := hends fun job _ => FileSystem.fits_sample job.path
  exact ⟨hroom, hpaths, outcomes, logging', hrun, hsummary outcomes logging' hrun⟩

end Highlight1C
