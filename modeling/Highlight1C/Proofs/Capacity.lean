import Highlight1C.Proofs.Tally

/-!
# What is kept when there is too much

A collector is asked to begin files and to collect events, in any order. What
it ought to keep of a file is given by the events that were meant for it alone
(`ideal`), and a collector without a number in all would keep just that
(`file?_unlimited`), however the requests for different files are mixed
(`unlimited_congr`).

A collector is followed along its requests by `Collected`. As long as there is
room it holds what the one without a number in all holds; once it is full,
nothing changes any more but that files are begun. So what it holds of a file
is always the beginning of what it ought to keep, and all of it if there is
room in the end (`collect_capacity`).
-/

namespace Highlight1C

/-! ## The order of paths is a linear one -/

/-- The name of a step, if it has one. -/
def PathStep.name : PathStep → String
  | .entry name => name
  | _ => ""

theorem PathStep.order_eq_compareLex : order = compareLex (compareOn rank) (compareOn name) := by
  funext a b
  cases a <;> cases b <;> rfl

instance : Std.TransCmp PathStep.order := by
  rw [PathStep.order_eq_compareLex]
  infer_instance

theorem Path.orderSteps_eq_compareLex : orderSteps = List.compareLex PathStep.order := by
  funext as bs
  induction as generalizing bs with
  | nil => cases bs <;> rfl
  | cons a as ih =>
    cases bs with
    | nil => rfl
    | cons b bs => rw [orderSteps, ih, List.compareLex_cons_cons]

instance : Std.TransCmp Path.orderSteps := by
  rw [Path.orderSteps_eq_compareLex]
  infer_instance

instance : Std.TransCmp Path.order where
  eq_swap := (inferInstance : Std.OrientedCmp Path.orderSteps).eq_swap
  isLE_trans := (inferInstance : Std.TransCmp Path.orderSteps).isLE_trans

/-- Paths with the same steps have the same place among others. -/
theorem Path.order_congr {a b : String} (h : same a b = true) (c : String) :
    order c a = order c b := by
  rw [same, beq_iff_eq] at h
  rw [order, order, h]

namespace Log.Collector

/-! ## Files in order -/

/-- Files in the order of their paths, with no path twice. -/
def Sorted (files : List FileRecord) : Prop :=
  files.Pairwise fun a b => Path.order a.path b.path = .lt

/-- What is there for the file at a path. -/
def file? (path : String) (files : List FileRecord) : Option FileRecord :=
  files.find? fun r => Path.same path r.path

theorem same_eq_false_of_order {a b : String} {o : Ordering} (h : Path.order a b = o)
    (ho : o ≠ .eq) : Path.same a b = false :=
  Bool.eq_false_iff.mpr fun hsame => ho (h.symm.trans (Path.order_eq_iff.mpr hsame))

theorem file?_cons_of_same {path : String} {r : FileRecord} (h : Path.same path r.path = true)
    (files : List FileRecord) : file? path (r :: files) = some r := by
  rw [file?, List.find?_cons, h]

theorem file?_cons_of_ne {path : String} {r : FileRecord} (h : Path.same path r.path = false)
    (files : List FileRecord) : file? path (r :: files) = file? path files := by
  rw [file?, List.find?_cons, h]
  rfl

theorem file?_congr {a b : String} (h : Path.same a b = true) : file? a = file? b := by
  funext files
  rw [file?, file?, Path.same_congr h]

/-- The events of a file changed, where one that is not there yet starts with
none. -/
def changed (path : String) (f : List Event → List Event) : Option FileRecord → FileRecord
  | some r => { r with events := f r.events }
  | none => ⟨path, f []⟩

/-- Changing the events of one file changes what is there for its path. -/
theorem file?_alter_self {files : List FileRecord} (hsorted : Sorted files) (path : String)
    (f : List Event → List Event) :
    file? path (alter path f files) = some (changed path f (file? path files)) := by
  have hself := Path.same_refl path
  induction files with
  | nil => exact file?_cons_of_same (r := ⟨path, f []⟩) hself _
  | cons r files ih =>
    simp only [alter]
    split
    · next horder =>
      have hsame := Path.order_eq_iff.mp horder
      rw [file?_cons_of_same hsame files]
      exact file?_cons_of_same (r := { r with events := f r.events }) hsame files
    · next horder =>
      have hnone : file? path (r :: files) = none := by
        refine List.find?_eq_none.mpr fun r' hr' => ?_
        have hlt : Path.order path r'.path = .lt := by
          rcases List.mem_cons.mp hr' with rfl | hr'
          · exact horder
          · exact Std.TransCmp.lt_trans horder (List.rel_of_pairwise_cons hsorted hr')
        simp [same_eq_false_of_order hlt]
      rw [hnone]
      exact file?_cons_of_same (r := ⟨path, f []⟩) hself _
    · next horder =>
      have hne := same_eq_false_of_order horder (by decide)
      rw [file?_cons_of_ne hne, file?_cons_of_ne hne]
      exact ih (List.Pairwise.of_cons hsorted)

/-- Nothing else changes. -/
theorem file?_alter_of_ne {path q : String} (hne : Path.same q path = false)
    (f : List Event → List Event) (files : List FileRecord) :
    file? q (alter path f files) = file? q files := by
  induction files with
  | nil => exact file?_cons_of_ne (r := ⟨path, f []⟩) hne _
  | cons r files ih =>
    simp only [alter]
    split
    · next horder =>
      have hother : Path.same q r.path = false := by
        rw [Path.same_comm, ← Path.same_congr (Path.order_eq_iff.mp horder), Path.same_comm]
        exact hne
      rw [file?_cons_of_ne hother files]
      exact file?_cons_of_ne (r := { r with events := f r.events }) hother files
    · exact file?_cons_of_ne (r := ⟨path, f []⟩) hne _
    · rw [file?, file?, List.find?_cons, List.find?_cons, ← file?, ← file?, ih]

theorem Sorted.alter {files : List FileRecord} (hsorted : Sorted files) (path : String)
    (f : List Event → List Event) : Sorted (alter path f files) := by
  induction files with
  | nil => exact List.pairwise_singleton _ _
  | cons r files ih =>
    have hfirst r' (hr' : r' ∈ files) : Path.order r.path r'.path = .lt :=
      List.rel_of_pairwise_cons hsorted hr'
    have hrest := List.Pairwise.of_cons hsorted
    simp only [Collector.alter]
    split
    · exact List.pairwise_cons.mpr ⟨hfirst, hrest⟩
    · next horder =>
      refine List.pairwise_cons.mpr ⟨fun r' hr' => ?_, hsorted⟩
      rcases List.mem_cons.mp hr' with rfl | hr'
      · exact horder
      · exact Std.TransCmp.lt_trans horder (hfirst r' hr')
    · next horder =>
      refine List.pairwise_cons.mpr ⟨fun r' hr' => ?_, ih hrest⟩
      obtain ⟨r₀, hsame, -, hall, -⟩ := alter_inv path f files
      rcases hall r' hr' with rfl | hr'
      · rw [← Path.order_congr hsame]
        exact Std.OrientedCmp.lt_of_gt horder
      · exact hfirst r' hr'

theorem Sorted.file?_eq_some {files : List FileRecord} (hsorted : Sorted files) {r : FileRecord}
    (hr : r ∈ files) : file? r.path files = some r := by
  induction files with
  | nil => cases hr
  | cons r' files ih =>
    rcases List.mem_cons.mp hr with rfl | hr
    · exact file?_cons_of_same (Path.same_refl r.path) files
    · have hlt := List.rel_of_pairwise_cons hsorted hr
      have hother := same_eq_false_of_order hlt (by decide)
      rw [file?_cons_of_ne (Path.same_comm _ _ ▸ hother)]
      exact ih (List.Pairwise.of_cons hsorted) hr

/-- Files in order are determined by what is there for each path. -/
theorem Sorted.ext {as bs : List FileRecord} (ha : Sorted as) (hb : Sorted bs)
    (h : ∀ path, file? path as = file? path bs) : as = bs := by
  have hirrefl (r : FileRecord) : Path.order r.path r.path ≠ .lt := by
    rw [Path.order_eq_iff.mpr (Path.same_refl r.path)]
    exact Ordering.noConfusion
  have hnodup {files : List FileRecord} (hsorted : Sorted files) : files.Nodup := by
    refine List.Pairwise.imp (fun {r r'} hlt heq => ?_) hsorted
    subst heq
    exact hirrefl r hlt
  have hmem (r : FileRecord) : r ∈ as ↔ r ∈ bs :=
    ⟨fun hr => List.mem_of_find?_eq_some (h r.path ▸ ha.file?_eq_some hr),
      fun hr => List.mem_of_find?_eq_some (h r.path ▸ hb.file?_eq_some hr)⟩
  have hperm := (List.perm_ext_iff_of_nodup (hnodup ha) (hnodup hb)).mpr hmem
  refine hperm.eq_of_pairwise (fun r r' _ _ hlt hgt => ?_) ha hb
  exact absurd (Std.TransCmp.lt_trans hlt hgt) (hirrefl r)

/-! ## Requests -/

/-- What a collector is asked to do. -/
inductive Request where
  /-- To collect an event for the file at a path. -/
  | record (path : String) (event : Event)
  /-- To note that the file at a path is begun. -/
  | beginFile (path : String)

namespace Request

/-- The path that a request names. -/
def path : Request → String
  | .record path _ => path
  | .beginFile path => path

/-- The event that a request comes with. -/
def event? : Request → Option Event
  | .record _ event => some event
  | .beginFile _ => none

/-- Whether a request is for the file at a path. -/
def isFor (path : String) (q : Request) : Bool := Path.same path q.path

/-- What becomes of the events of its file, where there is room in all. -/
def change : Request → List Event → List Event
  | .record _ event => addEvent event
  | .beginFile _ => id

end Request

/-- A collector after a request. -/
def serve (c : Collector) : Request → Collector
  | .record path event => c.record path event
  | .beginFile path => c.beginFile path

/-- What is collected by requests, one after the other. -/
def collect (requests : List Request) : Collector :=
  requests.foldl serve .empty

/-- The events that requests come with for the file at a path. -/
def recorded (path : String) (requests : List Request) : List Event :=
  (requests.filter (Request.isFor path)).filterMap Request.event?

theorem recorded_concat (path : String) (requests : List Request) (q : Request) :
    recorded path (requests ++ [q]) =
      recorded path requests ++ if q.isFor path then q.event?.toList else [] := by
  rw [recorded, List.filter_append, List.filterMap_append, ← recorded]
  cases hfor : q.isFor path <;> cases hevent : q.event? <;> simp [hfor, hevent]

/-! ## What ought to be kept of a file -/

/-- The first events of a file, as many as its number, and the warning that there
were too many if there were more. -/
def ideal (events : List Event) : List Event :=
  events.take Limits.current.maxLogEventsPerFile ++
    if Limits.current.maxLogEventsPerFile < events.length then [tooMany] else []

theorem ideal_of_le {events : List Event}
    (h : events.length ≤ Limits.current.maxLogEventsPerFile) : ideal events = events := by
  rw [ideal, List.take_of_length_le h, if_neg (Nat.not_lt_of_le h), List.append_nil]

theorem ideal_of_lt {events : List Event}
    (h : Limits.current.maxLogEventsPerFile < events.length) :
    ideal events = events.take Limits.current.maxLogEventsPerFile ++ [tooMany] := by
  rw [ideal, if_pos h]

/-- One more event makes of what ought to be kept what ought to be kept then. -/
theorem addEvent_ideal (e : Event) (events : List Event) :
    addEvent e (ideal events) = ideal (events ++ [e]) := by
  have hlength : (events ++ [e]).length = events.length + 1 := List.length_append
  rcases Nat.lt_trichotomy events.length Limits.current.maxLogEventsPerFile with hlt | heq | hgt
  · rw [ideal_of_le (Nat.le_of_lt hlt), ideal_of_le (hlength ▸ hlt), addEvent, if_pos hlt]
  · rw [ideal_of_le (Nat.le_of_eq heq), ideal_of_lt (by omega), addEvent, if_neg (by omega),
      if_pos heq, ← heq, List.take_left]
  · have hkept : (ideal events).length = Limits.current.maxLogEventsPerFile + 1 := by
      rw [ideal_of_lt hgt, List.length_append, List.length_take_of_le (Nat.le_of_lt hgt),
        List.length_singleton]
    rw [addEvent, if_neg (by omega), if_neg (by omega), ideal_of_lt hgt, ideal_of_lt (by omega),
      List.take_append_of_le_length (Nat.le_of_lt hgt)]

theorem Request.change_ideal (q : Request) (events : List Event) :
    q.change (ideal events) = ideal (events ++ q.event?.toList) := by
  cases q with
  | record path e => exact addEvent_ideal e events
  | beginFile path => exact (congrArg ideal (List.append_nil events)).symm

theorem prefix_addEvent (e : Event) (events : List Event) : events <+: addEvent e events := by
  unfold addEvent
  split
  · exact List.prefix_append _ _
  split
  · exact List.prefix_append _ _
  · exact List.prefix_refl _

/-- More events only add to what ought to be kept. -/
theorem ideal_prefix_concat (events : List Event) (e : Event) :
    ideal events <+: ideal (events ++ [e]) :=
  addEvent_ideal e events ▸ prefix_addEvent e (ideal events)

/-! ## Without a number in all -/

/-- The files that requests leave where there is always room. -/
def unlimited (requests : List Request) : List FileRecord :=
  requests.foldl (fun files q => alter q.path q.change files) []

theorem unlimited_concat (requests : List Request) (q : Request) :
    unlimited (requests ++ [q]) = alter q.path q.change (unlimited requests) := by
  rw [unlimited, List.foldl_append]
  rfl

theorem sorted_unlimited (requests : List Request) : Sorted (unlimited requests) := by
  induction requests using List.reverseRecOn with
  | nil => exact .nil
  | append_singleton requests q ih =>
    rw [unlimited_concat]
    exact ih.alter q.path q.change

/-- A file that all requests in a list are for: it is there if there are any, under
the spelling of the first. -/
def ownFile (own : List Request) : Option FileRecord :=
  own.head?.map fun first => ⟨first.path, ideal (own.filterMap Request.event?)⟩

theorem ownFile_concat (own : List Request) (q : Request) :
    ownFile (own ++ [q]) = some (changed q.path q.change (ownFile own)) := by
  have hevents : (own ++ [q]).filterMap Request.event? =
      own.filterMap Request.event? ++ q.event?.toList := by
    rw [List.filterMap_append, List.filterMap_cons]
    cases q.event? <;> rfl
  rw [ownFile, hevents, ← q.change_ideal]
  cases own <;> rfl

/-- Without a number in all, a file is what the requests for it make of it. -/
theorem file?_unlimited (path : String) (requests : List Request) :
    file? path (unlimited requests) = ownFile (requests.filter (Request.isFor path)) := by
  induction requests using List.reverseRecOn with
  | nil => rfl
  | append_singleton requests q ih =>
    rw [unlimited_concat, List.filter_append]
    cases hfor : q.isFor path with
    | true =>
      rw [List.filter_cons_of_pos hfor, List.filter_nil, ownFile_concat, ← ih, file?_congr hfor]
      exact file?_alter_self (sorted_unlimited requests) q.path q.change
    | false =>
      rw [List.filter_cons_of_neg (by simp [hfor]), List.filter_nil, List.append_nil, ← ih]
      exact file?_alter_of_ne hfor q.change _

/-- Without a number in all, the files do not depend on how the requests for
different files are mixed. -/
theorem unlimited_congr {requests requests' : List Request}
    (h : ∀ path, requests'.filter (Request.isFor path) = requests.filter (Request.isFor path)) :
    unlimited requests' = unlimited requests :=
  (sorted_unlimited requests').ext (sorted_unlimited requests) fun path => by
    rw [file?_unlimited, file?_unlimited, h]

/-! ## Along the requests -/

theorem events_eq (c : Collector) (path : String) :
    c.events path = ((file? path c.files).map FileRecord.events).getD [] := by
  rw [events, ← file?]
  cases file? path c.files <;> rfl

theorem events_of_unlimited {c : Collector} {requests : List Request}
    (h : c.files = unlimited requests) (path : String) :
    c.events path = ideal (recorded path requests) := by
  rw [events_eq, h, file?_unlimited, recorded, ownFile]
  cases requests.filter (Request.isFor path) <;> rfl

/-- To begin a file changes the events of none. -/
theorem events_beginFile {c : Collector} (hsorted : Sorted c.files) (path q : String) :
    (c.beginFile path).events q = c.events q := by
  rw [events_eq, events_eq]
  show ((file? q (alter path id c.files)).map _).getD [] = _
  cases hsame : Path.same q path with
  | true =>
    rw [file?_congr hsame, file?_alter_self hsorted]
    cases file? path c.files <;> rfl
  | false => rw [file?_alter_of_ne hsame]

theorem total_beginFile (c : Collector) (path : String) : (c.beginFile path).total = c.total := by
  obtain ⟨r, -, -, -, hmeasure⟩ := alter_inv path id c.files
  rw [total_eq, total_eq]
  exact Nat.add_right_cancel (hmeasure List.length rfl)

theorem total_record_le {c : Collector} (hroom : c.total < Limits.current.maxErrorCollection)
    (path : String) (e : Event) : (c.record path e).total ≤ c.total + 1 := by
  obtain ⟨r, -, -, -, hmeasure⟩ := alter_inv path (addEvent e) c.files
  have hsum := hmeasure List.length rfl
  have hgrown := length_addEvent_le e r.events
  rw [total_eq, total_eq, files_record hroom]
  omega

theorem record_of_full {c : Collector} (hfull : ¬c.total < Limits.current.maxErrorCollection)
    (path : String) (e : Event) : c.record path e = c := if_neg hfull

theorem total_serve_le (c : Collector) (q : Request) : (c.serve q).total ≤ c.total + 1 := by
  cases q with
  | beginFile path => exact total_beginFile c path ▸ Nat.le_succ _
  | record path e =>
    by_cases hroom : c.total < Limits.current.maxErrorCollection
    · exact total_record_le hroom path e
    · rw [serve, record_of_full hroom]
      exact Nat.le_succ _

/-- There is at most one event for each request. -/
theorem total_collect_le (requests : List Request) :
    (collect requests).total ≤ requests.length := by
  induction requests using List.reverseRecOn with
  | nil => exact Nat.le_refl 0
  | append_singleton requests q ih =>
    rw [collect, List.foldl_append, List.length_append]
    exact Nat.le_trans (total_serve_le _ q) (Nat.succ_le_succ ih)

/-- A request takes away nothing. -/
theorem measure_unlimited_le_concat (requests : List Request) (q : Request) :
    measure List.length (unlimited requests) ≤ measure List.length (unlimited (requests ++ [q])) := by
  obtain ⟨r, -, -, -, hmeasure⟩ := alter_inv q.path q.change (unlimited requests)
  have hsum := hmeasure List.length rfl
  have hgrown : r.events.length ≤ (q.change r.events).length :=
    match q with
    | .record _ e => (prefix_addEvent e r.events).length_le
    | .beginFile _ => Nat.le_refl _
  rw [unlimited_concat]
  omega

/-- What a collector holds after requests. The files of one without a number in all
are what it is measured by. -/
structure Collected (requests : List Request) (c : Collector) : Prop where
  sorted : Sorted c.files
  /-- There are no more events than the number in all, -/
  bounded : c.total ≤ Limits.current.maxErrorCollection
  /-- and no more than there would be without it. -/
  covered : c.total ≤ measure List.length (unlimited requests)
  /-- While there is room, nothing is lost. -/
  complete : c.total < Limits.current.maxErrorCollection → c.files = unlimited requests
  /-- What there is of a file is the beginning of what ought to be kept of it. -/
  partly : ∀ path, c.events path <+: ideal (recorded path requests)

namespace Collected

variable {requests : List Request} {c : Collector}

theorem empty : Collected [] .empty where
  sorted := .nil
  bounded := Nat.zero_le _
  covered := Nat.le_refl 0
  complete _ := rfl
  partly _ := List.nil_prefix

/-- An event for which there is no room. -/
theorem pass (h : Collected requests c) (hfull : ¬c.total < Limits.current.maxErrorCollection)
    (path : String) (e : Event) : Collected (requests ++ [.record path e]) c where
  sorted := h.sorted
  bounded := h.bounded
  covered := Nat.le_trans h.covered (measure_unlimited_le_concat requests _)
  complete hroom := absurd hroom hfull
  partly path' := by
    rw [recorded_concat]
    cases (Request.record path e).isFor path' with
    | true => exact (h.partly path').trans (ideal_prefix_concat _ e)
    | false =>
      rw [if_neg Bool.false_ne_true, List.append_nil]
      exact h.partly path'

/-- An event for which there is room. -/
theorem record (h : Collected requests c) (hroom : c.total < Limits.current.maxErrorCollection)
    (path : String) (e : Event) :
    Collected (requests ++ [.record path e]) (c.record path e) := by
  have hfiles : (c.record path e).files = unlimited (requests ++ [.record path e]) := by
    rw [files_record hroom, h.complete hroom, unlimited_concat]
    rfl
  exact {
    sorted := hfiles ▸ sorted_unlimited _
    bounded := Nat.le_trans (total_record_le hroom path e) hroom
    covered := Nat.le_of_eq ((total_eq _).trans (congrArg _ hfiles))
    complete := fun _ => hfiles
    partly := fun path' => events_of_unlimited hfiles path' ▸ List.prefix_refl _ }

theorem beginFile (h : Collected requests c) (path : String) :
    Collected (requests ++ [.beginFile path]) (c.beginFile path) where
  sorted := h.sorted.alter path id
  bounded := total_beginFile c path ▸ h.bounded
  covered := by
    rw [total_beginFile]
    exact Nat.le_trans h.covered (measure_unlimited_le_concat requests _)
  complete hroom := by
    rw [total_beginFile] at hroom
    rw [unlimited_concat, ← h.complete hroom]
    rfl
  partly path' := by
    rw [events_beginFile h.sorted, recorded_concat]
    have hnone : (if (Request.beginFile path).isFor path' then
        (Request.beginFile path).event?.toList else []) = [] := ite_self _
    rw [hnone, List.append_nil]
    exact h.partly path'

theorem serve (h : Collected requests c) (q : Request) :
    Collected (requests ++ [q]) (c.serve q) := by
  cases q with
  | beginFile path => exact h.beginFile path
  | record path e =>
    by_cases hroom : c.total < Limits.current.maxErrorCollection
    · exact h.record hroom path e
    · rw [Collector.serve, record_of_full hroom]
      exact h.pass hroom path e

end Collected

/-- So it is after any requests. -/
theorem collected (requests : List Request) : Collected requests (collect requests) := by
  induction requests using List.reverseRecOn with
  | nil => exact .empty
  | append_singleton requests q ih =>
    rw [collect, List.foldl_append]
    exact ih.serve q

/-- The number of events for a file is 200, and what stands for those beyond it is a
warning `W000`. However many events a collector is asked for, it never holds more
than 2000. What it holds of a file is the beginning of what ought to be kept: its
first 200 events, and the warning if there were more. If it holds less than 2000 in
the end, it holds all that ought to be kept, and it would hold the same files with
the same events after any requests that are the same, in the same order, for each
file by itself. -/
theorem collect_capacity (requests : List Request) :
    Limits.current.maxLogEventsPerFile = 200 ∧
    (tooMany.level = .warning ∧ tooMany.code.text = "W000" ∧
      tooMany.message = "Too many events for file (limit: 200)") ∧
    (collect requests).total ≤ 2000 ∧
    (∀ path, (collect requests).events path <+: ideal (recorded path requests)) ∧
    ((collect requests).total < 2000 →
      (∀ path, (collect requests).events path = ideal (recorded path requests)) ∧
      ∀ requests' : List Request,
        (∀ path, requests'.filter (Request.isFor path) = requests.filter (Request.isFor path)) →
        (collect requests').files = (collect requests).files) := by
  have h := collected requests
  refine ⟨rfl, ⟨rfl, rfl, rfl⟩, h.bounded, h.partly, fun hroom => ?_⟩
  have hfiles := h.complete hroom
  refine ⟨events_of_unlimited hfiles, fun requests' hsame => ?_⟩
  have h' := collected requests'
  -- in any order there is no more than there would be without a number in all
  have htotal : (collect requests').total ≤ (collect requests).total := by
    have hcovered := h'.covered
    rwa [unlimited_congr hsame, ← hfiles, ← total_eq] at hcovered
  rw [h'.complete (Nat.lt_of_le_of_lt htotal hroom), hfiles, unlimited_congr hsame]

/-- A file with one event too many and a file with one event, in one order and in
the other. -/
theorem collect_capacity_two_files :
    let noise := List.replicate 201 (Request.record "noisy" (.warning "noise"))
    let quiet := [Request.beginFile "quiet", .record "quiet" (.warning "once")]
    (collect (noise ++ quiet)).total < 2000 ∧
    (collect (noise ++ quiet)).events "noisy" =
      List.replicate 200 (.warning "noise") ++ [tooMany] ∧
    (collect (quiet ++ noise)).files = (collect (noise ++ quiet)).files := by
  intro noise quiet
  have hnoise (path : String) : noise.filter (Request.isFor path) =
      if Path.same path "noisy" then noise else [] := List.filter_replicate
  have hquiet (path : String) : quiet.filter (Request.isFor path) =
      if Path.same path "quiet" then quiet else [] := by
    cases hsame : Path.same path "quiet" <;> simp [quiet, Request.isFor, Request.path, hsame]
  have hother : Path.same "noisy" "quiet" = false := by decide +kernel
  have hroom : (collect (noise ++ quiet)).total < 2000 := by
    refine Nat.lt_of_le_of_lt (total_collect_le _) ?_
    rw [List.length_append, List.length_replicate]
    decide
  obtain ⟨-, -, -, -, hkept⟩ := collect_capacity (noise ++ quiet)
  obtain ⟨hevents, hmixed⟩ := hkept hroom
  refine ⟨hroom, ?_, hmixed _ fun path => ?_⟩
  · have hrecorded : recorded "noisy" (noise ++ quiet) = List.replicate 201 (.warning "noise") := by
      rw [recorded, List.filter_append, hnoise, hquiet, hother, Path.same_refl, if_pos rfl,
        if_neg Bool.false_ne_true, List.append_nil]
      exact List.filterMap_replicate_of_some rfl
    have hmore : Limits.current.maxLogEventsPerFile <
        (List.replicate 201 (Event.warning "noise")).length := by
      rw [List.length_replicate]
      decide
    rw [hevents, hrecorded, ideal_of_lt hmore, List.take_replicate]
    rfl
  · rw [List.filter_append, List.filter_append, hnoise, hquiet]
    cases hnoisy : Path.same path "noisy" with
    | false => exact List.append_nil _
    | true =>
      rw [Path.same_congr hnoisy, hother]
      exact (List.append_nil _).symm

end Log.Collector

end Highlight1C
