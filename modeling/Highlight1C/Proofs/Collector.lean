import Highlight1C.Log.Collector
import Mathlib.Algebra.GroupWithZero.Nat
import Mathlib.Data.List.Induction

/-!
# What a collector holds

A collector keeps its files in the order of their paths. Which files it holds,
and so the figures about them, do not depend on that order
(`summary_eq_of_perm`, `total_eq_of_perm`). A file that is new to it, and whose
events there is room for, is added with all of its events and changes no other
file (`files_perm_of_new`).
-/

namespace Highlight1C

/-! ## The order of paths -/

theorem PathStep.order_eq_iff {a b : PathStep} : a.order b = .eq ↔ a = b := by
  have hentry (m n : String) : compare m n = .eq ↔ m = n := Std.LawfulEqOrd.compare_eq_iff_eq
  cases a <;> cases b <;> simp [order, rank, hentry]

namespace Path

theorem orderSteps_eq_iff {as bs : List PathStep} : orderSteps as bs = .eq ↔ as = bs := by
  induction as generalizing bs with
  | nil => cases bs <;> simp [orderSteps]
  | cons a as ih =>
    cases bs with
    | nil => simp [orderSteps]
    | cons b bs =>
      rw [orderSteps, Ordering.then_eq_eq, PathStep.order_eq_iff, ih, List.cons.injEq]

/-- Paths have the same place in the order exactly if they take the same steps. -/
theorem order_eq_iff {a b : String} : order a b = .eq ↔ same a b = true := by
  rw [order, orderSteps_eq_iff, same, beq_iff_eq]

theorem same_refl (path : String) : same path path = true := by
  rw [same, beq_self_eq_true]

theorem same_comm (a b : String) : same a b = same b a := by
  rw [same, same, Bool.beq_comm]

end Path

namespace Log.Collector

/-! ## Changing the events of a file -/

/-- Whether no file takes the same steps as a path. -/
def New (path : String) (files : List FileRecord) : Prop :=
  ∀ r ∈ files, Path.same path r.path = false

theorem New.tail {path : String} {r : FileRecord} {files : List FileRecord}
    (h : New path (r :: files)) : New path files :=
  fun r' hr' => h r' (List.mem_cons_of_mem r hr')

theorem New.order_ne {path : String} {r : FileRecord} {files : List FileRecord}
    (h : New path (r :: files)) : Path.order path r.path ≠ .eq := by
  intro heq
  have hsame := Path.order_eq_iff.mp heq
  rw [h r List.mem_cons_self] at hsame
  cases hsame

theorem alter_alter (path : String) (f g : List Event → List Event) (files : List FileRecord) :
    alter path g (alter path f files) = alter path (g ∘ f) files := by
  have hself : Path.order path path = .eq := Path.order_eq_iff.mpr (Path.same_refl path)
  induction files with
  | nil => simp [alter, hself]
  | cons r files ih =>
    simp only [alter]
    split
    · next horder => simp [alter, horder]
    · next => simp [alter, hself]
    · next horder => simp [alter, horder, ih]

/-- A new file starts without events, so only what becomes of none matters. -/
theorem alter_perm_of_new {path : String} {files : List FileRecord} (hnew : New path files)
    (f : List Event → List Event) : (alter path f files).Perm (⟨path, f []⟩ :: files) := by
  induction files with
  | nil => exact .refl _
  | cons r files ih =>
    have hrest := ih hnew.tail
    simp only [alter]
    split
    · next heq => exact absurd heq hnew.order_ne
    · exact .refl _
    · exact (hrest.cons r).trans (List.Perm.swap _ _ _)

theorem alter_congr_of_new {path : String} {files : List FileRecord} (hnew : New path files)
    {f g : List Event → List Event} (hfg : f [] = g []) :
    alter path f files = alter path g files := by
  induction files with
  | nil => simp [alter, hfg]
  | cons r files ih =>
    have hrest := ih hnew.tail
    simp only [alter]
    split
    · next heq => exact absurd heq hnew.order_ne
    · rw [hfg]
    · rw [hrest]

/-! ## Figures -/

theorem foldl_length (n : Nat) (files : List FileRecord) :
    files.foldl (fun n r => n + r.events.length) n = n + (files.map fun r => r.events.length).sum := by
  induction files generalizing n with
  | nil => rfl
  | cons r files ih => rw [List.foldl_cons, ih, List.map_cons, List.sum_cons, Nat.add_assoc]

theorem total_eq_of_perm {c : Collector} {files : List FileRecord} (h : c.files.Perm files) :
    c.total = (files.map fun r => r.events.length).sum := by
  have hfoldl : c.total = files.foldl (fun n r => n + r.events.length) 0 :=
    h.foldl_eq' (fun _ _ _ _ n => Nat.add_right_comm n _ _) 0
  rw [hfoldl, foldl_length, Nat.zero_add]

/-- A file adds its errors and its warnings, and is counted once: as failed if
it has errors, or else as warned about if it has warnings, or else as clean. -/
theorem addFile_eq (s : Summary) (r : FileRecord) :
    addFile s r =
      { files := s.files + 1
        clean := s.clean + if r.errorCount = 0 ∧ r.warningCount = 0 then 1 else 0
        failed := s.failed + if 0 < r.errorCount then 1 else 0
        warned := s.warned + if r.errorCount = 0 ∧ 0 < r.warningCount then 1 else 0
        errors := s.errors + r.errorCount
        warnings := s.warnings + r.warningCount } := by
  simp only [addFile]
  split
  · next herrors => simp [Nat.ne_of_gt herrors]
  next herrors =>
  have herrors : r.errorCount = 0 := by omega
  split
  · next hwarnings => simp [herrors, hwarnings, Nat.ne_of_gt hwarnings]
  · next hwarnings =>
    have hwarnings : r.warningCount = 0 := by omega
    simp [herrors, hwarnings]

theorem addFile_right_comm (s : Summary) (r r' : FileRecord) :
    addFile (addFile s r) r' = addFile (addFile s r') r := by
  simp only [addFile_eq, Nat.add_right_comm]

/-- The figures do not depend on the order of the files. -/
theorem summary_eq_of_perm {c : Collector} {files : List FileRecord} (h : c.files.Perm files) :
    c.summary = files.foldl addFile {} :=
  h.foldl_eq' (fun r _ r' _ s => addFile_right_comm s r r') {}

/-! ## A file and its events -/

/-- A new file whose events there is room for is begun and gets all of them. -/
theorem files_of_new {c : Collector} {path : String} (hnew : New path c.files) {events : List Event}
    (hfile : events.length ≤ Limits.current.maxLogEventsPerFile)
    (hroom : c.total + events.length ≤ Limits.current.maxErrorCollection) :
    (events.foldl (fun c e => c.record path e) (c.beginFile path)).files =
      alter path (fun _ => events) c.files := by
  induction events using List.reverseRecOn with
  | nil => exact alter_congr_of_new hnew rfl
  | append_singleton events e ih =>
    rw [List.length_append, List.length_singleton] at hfile hroom
    have hfiles := ih (by omega) (by omega)
    rw [List.foldl_append, List.foldl_cons, List.foldl_nil]
    generalize events.foldl (fun c e => c.record path e) (c.beginFile path) = begun at hfiles ⊢
    have htotal : begun.total = events.length + c.total := by
      have hperm := alter_perm_of_new hnew fun _ => events
      rw [← hfiles] at hperm
      rw [total_eq_of_perm hperm, List.map_cons, List.sum_cons, ← total_eq_of_perm (.refl c.files)]
    have hadd : addEvent e ∘ (fun _ : List Event => events) = fun _ => events ++ [e] := by
      funext _
      show addEvent e events = _
      rw [addEvent, if_pos (by omega)]
    rw [record, if_pos (by omega), hfiles, alter_alter, hadd]

/-- So it is there with its events, and all other files are as they were. -/
theorem files_perm_of_new {c : Collector} {path : String} (hnew : New path c.files)
    {events : List Event} (hfile : events.length ≤ Limits.current.maxLogEventsPerFile)
    (hroom : c.total + events.length ≤ Limits.current.maxErrorCollection) :
    (events.foldl (fun c e => c.record path e) (c.beginFile path)).files.Perm
      (⟨path, events⟩ :: c.files) := by
  rw [files_of_new hnew hfile hroom]
  exact alter_perm_of_new hnew _

end Log.Collector

end Highlight1C
