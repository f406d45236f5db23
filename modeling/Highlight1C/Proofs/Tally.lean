import Highlight1C.Proofs.Collector

/-!
# Counting the files that failed

A collector counts a file as failed when it has an error. To follow this count
while inputs are dealt with one after the other, under names of which two may be
the same path, `Collector.Tally` says of a list of names and of those that failed
among them what the collector has collected: one event for each name at most, and
an error only for a name that failed. Beginning a file keeps this so
(`Tally.beginFile`), and so do a warning (`Tally.record_other`) and an error for a
name that has not failed before (`Tally.record_error`).

All three change the events of one file (`alter_inv`), so a figure that adds up
over the files changes by what that file adds.
-/

namespace Highlight1C

theorem Path.same_trans {a b c : String} (hab : same a b = true) (hbc : same b c = true) :
    same a c = true := by
  rw [same, beq_iff_eq] at *
  exact hab.trans hbc

/-- Paths with the same steps are the same as the same paths. -/
theorem Path.same_congr {a b : String} (h : same a b = true) : same a = same b := by
  funext c
  rw [same, beq_iff_eq] at h
  rw [same, same, h]

namespace Log.Collector

/-- A figure that adds up over the events of each file. -/
def measure (μ : List Event → Nat) (files : List FileRecord) : Nat :=
  (files.map fun r => μ r.events).sum

/-- Changing the events of the file at a path changes one file, which may be new
and without events before. -/
theorem alter_inv (path : String) (f : List Event → List Event) (files : List FileRecord) :
    ∃ r, Path.same path r.path = true ∧ (r ∈ files ∨ r.events = []) ∧
      (∀ r' ∈ alter path f files, r' = { r with events := f r.events } ∨ r' ∈ files) ∧
      ∀ μ : List Event → Nat, μ [] = 0 →
        measure μ (alter path f files) + μ r.events = measure μ files + μ (f r.events) := by
  induction files with
  | nil =>
    refine ⟨⟨path, []⟩, Path.same_refl path, .inr rfl, fun r' hr' => .inl ?_, fun μ hμ => ?_⟩
    · exact List.mem_singleton.mp hr'
    · simp [measure, alter, hμ]
  | cons r files ih =>
    simp only [alter]
    split
    · next horder =>
      refine ⟨r, Path.order_eq_iff.mp horder, .inl List.mem_cons_self, fun r' hr' => ?_,
        fun μ _ => ?_⟩
      · exact (List.mem_cons.mp hr').imp_right (List.mem_cons_of_mem r)
      · simp only [measure, List.map_cons, List.sum_cons]
        omega
    · refine ⟨⟨path, []⟩, Path.same_refl path, .inr rfl, fun r' hr' => ?_, fun μ hμ => ?_⟩
      · exact List.mem_cons.mp hr'
      · simp only [measure, List.map_cons, List.sum_cons, hμ]
        omega
    · obtain ⟨r₀, hsame, hmem, hall, hmeasure⟩ := ih
      refine ⟨r₀, hsame, hmem.imp_left (List.mem_cons_of_mem r), fun r' hr' => ?_, fun μ hμ => ?_⟩
      · rcases List.mem_cons.mp hr' with rfl | hr'
        · exact .inr List.mem_cons_self
        · exact (hall r' hr').imp_right (List.mem_cons_of_mem r)
      · have h := hmeasure μ hμ
        simp only [measure, List.map_cons, List.sum_cons] at h ⊢
        omega

/-! ## Figures that add up -/

/-- Whether events are those of a file that failed, as a number. -/
def failure (events : List Event) : Nat :=
  if 0 < events.countP Event.isError then 1 else 0

theorem foldl_addFile_failed (s : Summary) (files : List FileRecord) :
    (files.foldl addFile s).failed = s.failed + measure failure files := by
  induction files generalizing s with
  | nil => rfl
  | cons r files ih =>
    rw [List.foldl_cons, ih, addFile_eq]
    exact Nat.add_assoc _ _ _

theorem summary_failed (c : Collector) : c.summary.failed = measure failure c.files := by
  rw [summary, foldl_addFile_failed, Nat.zero_add]

theorem total_eq (c : Collector) : c.total = measure List.length c.files := by
  rw [total, foldl_length, Nat.zero_add]
  rfl

/-! ## Events of a file -/

/-- An event that is no error adds none, not even where there is no room for
it. -/
theorem countP_addEvent_of_ne {e : Event} (he : e.level ≠ .error) (events : List Event) :
    (addEvent e events).countP Event.isError = events.countP Event.isError := by
  have hnone : e.isError = false := beq_false_of_ne he
  unfold addEvent
  split
  · simp [hnone]
  split
  · have htooMany : tooMany.isError = false := rfl
    simp [htooMany]
  · rfl

theorem length_addEvent_le (e : Event) (events : List Event) :
    (addEvent e events).length ≤ events.length + 1 := by
  unfold addEvent
  split
  · simp
  split
  · simp
  · exact Nat.le_succ _

theorem files_record {c : Collector} (hroom : c.total < Limits.current.maxErrorCollection)
    (path : String) (e : Event) : (c.record path e).files = alter path (addEvent e) c.files := by
  rw [record, if_pos hroom]

/-! ## The tally -/

/-- What a collector has collected for names, of which some have failed. -/
structure Tally (names failing : List String) (c : Collector) : Prop where
  /-- Those that failed are counted as failed. -/
  failed : c.summary.failed = failing.length
  /-- There is one event for each name at most, -/
  few : c.total ≤ names.length
  /-- in the file with that name, -/
  short : ∀ r ∈ c.files, r.events.length ≤ names.countP (Path.same r.path)
  /-- and an error only for a name that failed. -/
  faulty : ∀ r ∈ c.files, 0 < r.errorCount → ∃ name ∈ failing, Path.same name r.path = true

theorem Tally.empty : Tally [] [] .empty :=
  ⟨rfl, Nat.le_refl 0, fun _ hr => absurd hr List.not_mem_nil,
    fun _ hr => absurd hr List.not_mem_nil⟩

namespace Tally

variable {names failing : List String} {c : Collector}

theorem of_perm (h : Tally names failing c) {names' failing' : List String}
    (hnames : names.Perm names') (hfailing : failing.Perm failing') : Tally names' failing' c where
  failed := h.failed.trans hfailing.length_eq
  few := hnames.length_eq ▸ h.few
  short r hr := hnames.countP_eq _ ▸ h.short r hr
  faulty r hr hfaulty :=
    let ⟨name, hname, hsame⟩ := h.faulty r hr hfaulty
    ⟨name, hfailing.mem_iff.mp hname, hsame⟩

/-- A name for which nothing is collected. -/
theorem pass (h : Tally names failing c) (name : String) : Tally (name :: names) failing c where
  failed := h.failed
  few := Nat.le_succ_of_le h.few
  short r hr := Nat.le_trans (h.short r hr) (List.countP_cons ▸ Nat.le_add_right _ _)
  faulty := h.faulty

/-- A file with no more events and no more errors than before, or than a name that
comes in addition allows for. -/
theorem of_alter (h : Tally names failing c) {path : String} {f : List Event → List Event}
    {c' : Collector} (hfiles : c'.files = alter path f c.files) (added : Nat)
    (hlength : ∀ events, (f events).length ≤ events.length + added)
    (herrors : ∀ events, (f events).countP Event.isError = events.countP Event.isError) :
    Tally (List.replicate added path ++ names) failing c' := by
  obtain ⟨r, hsame, hold, hall, hmeasure⟩ := alter_inv path f c.files
  have hshort : r.events.length ≤ names.countP (Path.same r.path) := by
    rcases hold with hr | hnone
    · exact h.short r hr
    · rw [hnone]
      exact Nat.zero_le _
  have hadded : (List.replicate added path).countP (Path.same r.path) = added := by
    rw [List.countP_replicate, if_pos (Path.same_comm _ _ ▸ hsame)]
  refine ⟨?_, ?_, fun r' hr' => ?_, fun r' hr' hfaulty => ?_⟩
  · have hfailure : failure (f r.events) = failure r.events := by
      rw [failure, failure, herrors]
    have hsum := hmeasure failure rfl
    rw [hfailure] at hsum
    rw [summary_failed, hfiles, Nat.add_right_cancel hsum, ← summary_failed, h.failed]
  · have hsum := hmeasure List.length rfl
    have hgrown := hlength r.events
    have hfew := h.few
    rw [total_eq] at hfew ⊢
    rw [hfiles, List.length_append, List.length_replicate]
    omega
  · rw [hfiles] at hr'
    rcases hall r' hr' with rfl | hr'
    · rw [List.countP_append, hadded, Nat.add_comm]
      exact Nat.le_trans (hlength r.events) (Nat.add_le_add_right hshort added)
    · rw [List.countP_append]
      exact Nat.le_trans (h.short r' hr') (Nat.le_add_left _ _)
  · rw [hfiles] at hr'
    rcases hall r' hr' with rfl | hr'
    · have hbefore : 0 < r.errorCount := by
        rw [FileRecord.errorCount, ← herrors]
        exact hfaulty
      rcases hold with hr | hnone
      · exact h.faulty r hr hbefore
      · rw [FileRecord.errorCount, hnone] at hbefore
        exact absurd hbefore (Nat.lt_irrefl 0)
    · exact h.faulty r' hr' hfaulty

theorem beginFile (h : Tally names failing c) (path : String) :
    Tally names failing (c.beginFile path) :=
  h.of_alter rfl 0 (fun _ => Nat.le_refl _) fun _ => rfl

/-- An event that is no error. -/
theorem record_other (h : Tally names failing c)
    (hroom : names.length < Limits.current.maxErrorCollection) (path : String) {e : Event}
    (he : e.level ≠ .error) : Tally (path :: names) failing (c.record path e) :=
  h.of_alter (files_record (Nat.lt_of_le_of_lt h.few hroom) path e) 1 (length_addEvent_le e)
    (countP_addEvent_of_ne he)

/-- An error for a name that has not failed before. -/
theorem record_error (h : Tally names failing c)
    (hroom : names.length < Limits.current.maxErrorCollection) {path : String} {e : Event}
    (he : e.level = .error) (hnew : ∀ name ∈ failing, Path.same name path = false)
    (hfew : names.countP (Path.same path) < Limits.current.maxLogEventsPerFile) :
    Tally (path :: names) (path :: failing) (c.record path e) := by
  have hfiles := files_record (Nat.lt_of_le_of_lt h.few hroom) path e
  obtain ⟨r, hsame, hold, hall, hmeasure⟩ := alter_inv path (addEvent e) c.files
  have hshort : r.events.length ≤ names.countP (Path.same path) := by
    rcases hold with hr | hnone
    · rw [Path.same_congr hsame]
      exact h.short r hr
    · rw [hnone]
      exact Nat.zero_le _
  have hadd : addEvent e r.events = r.events ++ [e] := if_pos (Nat.lt_of_le_of_lt hshort hfew)
  have hclean : r.events.countP Event.isError = 0 := by
    rcases hold with hr | hnone
    · refine Nat.eq_zero_of_not_pos fun hfaulty => ?_
      obtain ⟨name, hname, hfile⟩ := h.faulty r hr hfaulty
      have hpath := Path.same_trans hfile (Path.same_comm _ _ ▸ hsame)
      cases (hnew name hname).symm.trans hpath
    · rw [hnone]
      rfl
  have herror : e.isError = true := beq_iff_eq.mpr he
  refine ⟨?_, ?_, fun r' hr' => ?_, fun r' hr' hfaulty => ?_⟩
  · have hsum := hmeasure failure rfl
    have hbefore : failure r.events = 0 := by simp [failure, hclean]
    have hafter : failure (r.events ++ [e]) = 1 := by simp [failure, herror]
    rw [hadd, hbefore, hafter] at hsum
    rw [summary_failed, hfiles, List.length_cons, ← h.failed, summary_failed]
    exact hsum
  · have hsum := hmeasure List.length rfl
    have hfew := h.few
    rw [hadd, List.length_append, List.length_singleton] at hsum
    rw [total_eq] at hfew ⊢
    rw [hfiles, List.length_cons]
    omega
  · rw [hfiles] at hr'
    rcases hall r' hr' with rfl | hr'
    · rw [hadd, List.length_append, List.length_singleton, List.countP_cons,
        if_pos (Path.same_comm _ _ ▸ hsame), ← Path.same_congr hsame]
      exact Nat.add_le_add_right hshort 1
    · rw [List.countP_cons]
      exact Nat.le_trans (h.short r' hr') (Nat.le_add_right _ _)
  · rw [hfiles] at hr'
    rcases hall r' hr' with rfl | hr'
    · exact ⟨path, List.mem_cons_self, hsame⟩
    · obtain ⟨name, hname, hfile⟩ := h.faulty r' hr' hfaulty
      exact ⟨name, List.mem_cons_of_mem path hname, hfile⟩

end Tally

end Log.Collector

end Highlight1C
