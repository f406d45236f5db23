import Highlight1C.Text.Class

/-!
# The beginning of a text

What recognisers that look ahead need of the beginnings of a text: two parts
that follow each other at its start are its start (`append_isPrefix`), a run
at its start is whole (`not_of_head?_drop_takeWhile`), and what a text that is
cut off still shows of its start (`takeWhile_take`, `head?_of_head?_take`).

`Run`, `Stops` and `Begins` say of a stretch of text that it is a run of a
class of characters, that what follows does not continue it, and that what
comes before does not either; `Line` says that it goes to the end of its line.
-/

namespace Highlight1C.Text

/-- What holds of each of a few characters is decided one by one. -/
theorem forall_mem_of_all {p : Char → Prop} [DecidablePred p] {chars : List Char}
    (h : (chars.all fun c => decide (p c)) = true) : ∀ c ∈ chars, p c := by
  intro c hc
  exact of_decide_eq_true (List.all_eq_true.mp h c hc)

/-- The digits. -/
def digits : List Char := ['0', '1', '2', '3', '4', '5', '6', '7', '8', '9']

theorem mem_digits {c : Char} (h : c.isDigit = true) : c ∈ digits := by
  obtain ⟨h₀, h₉⟩ := Char.isDigit_iff_toNat.mp h
  have hcode : c.toNat ∈ List.range' 48 10 := by
    rw [List.mem_range'_1]
    exact ⟨h₀, Nat.lt_succ_of_le h₉⟩
  have hall : ∀ n ∈ List.range' 48 10, Char.ofNat n ∈ digits := by decide
  rw [← Char.ofNat_toNat c]
  exact hall _ hcode

theorem append_isPrefix {a b text : List Char} (ha : a <+: text) (hb : b <+: text.drop a.length) :
    a ++ b <+: text := by
  obtain ⟨rest, hrest⟩ := hb
  refine ⟨rest, ?_⟩
  rw [List.append_assoc, hrest, List.prefix_iff_eq_append.mp ha]

theorem singleton_isPrefix {c : Char} {text : List Char} (h : text.head? = some c) : [c] <+: text := by
  obtain ⟨rest, rfl⟩ := List.head?_eq_some_iff.mp h
  exact ⟨rest, rfl⟩

/-- A run of characters is still whole when the text is cut off behind it. -/
theorem takeWhile_take {p : Char → Bool} {text : List Char} {n : Nat}
    (h : (text.takeWhile p).length ≤ n) : (text.take n).takeWhile p = text.takeWhile p := by
  rw [← List.take_takeWhile, List.take_of_length_le h]

/-- The rest of a line is still whole when the text is cut off behind it. -/
theorem restOfLine_take {text : List Char} {n : Nat} (h : (restOfLine text).length ≤ n) :
    restOfLine (text.take n) = restOfLine text :=
  takeWhile_take h

/-- A run that a text does not begin with does not begin it when it is cut
off. -/
theorem takeWhile_take_eq_nil {p : Char → Bool} {text : List Char} (n : Nat)
    (h : text.takeWhile p = []) : (text.take n).takeWhile p = [] := by
  rw [← List.take_takeWhile, h, List.take_nil]

/-- A beginning of a run is a run. -/
theorem takeWhile_take_of_le {p : Char → Bool} {text : List Char} {n : Nat}
    (h : n ≤ (text.takeWhile p).length) : (text.take n).takeWhile p = text.take n := by
  have hrun : text.takeWhile p = text.take (text.takeWhile p).length :=
    List.prefix_iff_eq_take.mp (List.takeWhile_prefix p)
  rw [← List.take_takeWhile, hrun, List.take_take, Nat.min_eq_left h]

/-- A run goes as far as it can: what follows it does not belong to it. -/
theorem not_of_head?_drop_takeWhile {p : Char → Bool} {text : List Char} {c : Char}
    (h : (text.drop (text.takeWhile p).length).head? = some c) : p c = false := by
  induction text with
  | nil => cases h
  | cons d text ih =>
    by_cases hd : p d = true
    · rw [List.takeWhile_cons_of_pos hd, List.length_cons, List.drop_succ_cons] at h
      exact ih h
    · rw [List.takeWhile_cons_of_neg hd] at h
      cases h
      exact Bool.not_eq_true _ ▸ hd

/-- A run is empty if the text does not begin with one of its characters. -/
theorem takeWhile_eq_nil_of_stop {p : Char → Bool} {text : List Char}
    (h : ∀ c, text.head? = some c → p c = false) : text.takeWhile p = [] := by
  cases text with
  | nil => rfl
  | cons c text => exact List.takeWhile_cons_of_neg (by rw [h c rfl]; decide)

/-- and only then. -/
theorem takeWhile_eq_nil_iff {p : Char → Bool} {text : List Char} :
    text.takeWhile p = [] ↔ text.head?.any p = false := by
  cases text with
  | nil => exact iff_of_true rfl rfl
  | cons c text => simp [List.takeWhile_cons]

/-- The rest of a line is empty at its end: before a line feed, or where the
text ends. -/
theorem restOfLine_eq_nil {text : List Char} :
    restOfLine text = [] ↔ ∀ c, text.head? = some c → c = '\n' := by
  cases text with
  | nil => simp [restOfLine]
  | cons c text => by_cases hc : c = '\n' <;> simp [restOfLine, hc]

/-- A run that what follows does not continue is taken, and nothing else. -/
theorem takeWhile_append_of_stop {p : Char → Bool} {run rest : List Char}
    (hrun : ∀ c ∈ run, p c = true) (hrest : ∀ c, rest.head? = some c → p c = false) :
    (run ++ rest).takeWhile p = run := by
  rw [List.takeWhile_append_of_pos hrun, takeWhile_eq_nil_of_stop hrest, List.append_nil]

/-- A text that is cut off begins as the whole text, if it begins at all. -/
theorem head?_of_head?_take {text : List Char} {n : Nat} {c : Char}
    (h : (text.take n).head? = some c) : text.head? = some c := by
  rw [List.head?_take] at h
  split at h
  · cases h
  · exact h

theorem any_head?_of_any_head?_take {p : Char → Bool} {text : List Char} {n : Nat}
    (h : (text.take n).head?.any p = true) : text.head?.any p = true := by
  rw [List.head?_take] at h
  split at h
  · cases h
  · exact h

/-- A text that is cut off later begins as before. -/
theorem head?_take_of_pos {text : List Char} {n : Nat} (h : 0 < n) :
    (text.take n).head? = text.head? := by
  rw [List.head?_take, if_neg (by omega)]

/-! ## Runs and lines -/

/-- A run of a class of characters: it is not empty, and all of its characters
are of the class. -/
def Run (p : Char → Bool) (text : List Char) : Prop :=
  text ≠ [] ∧ ∀ c ∈ text, p c = true

/-- A text does not begin with a character of the class; it may be empty. -/
def Stops (p : Char → Bool) (rest : List Char) : Prop :=
  ∀ c, rest.head? = some c → p c = false

/-- A text does not end with a character of the class; it may be empty. -/
def Begins (p : Char → Bool) (behind : List Char) : Prop :=
  ∀ c, behind.getLast? = some c → p c = false

/-- A line ends: the text begins with a line feed, or is empty. -/
def LineEnds (rest : List Char) : Prop :=
  ∀ c, rest.head? = some c → c = '\n'

/-- A stretch of text that begins with a sign and goes to the end of its line,
in front of `rest`. -/
structure Line (sign text rest : List Char) : Prop where
  begins : sign <+: text
  within : '\n' ∉ text
  ends : LineEnds rest

theorem Stops.mono {p q : Char → Bool} {rest : List Char} (h : Stops p rest)
    (hq : ∀ c, p c = false → q c = false) : Stops q rest :=
  fun c hc => hq c (h c hc)

theorem LineEnds.stops {p : Char → Bool} {rest : List Char} (h : LineEnds rest)
    (hp : p '\n' = false) : Stops p rest :=
  fun c hc => h c hc ▸ hp

theorem run_takeWhile {p : Char → Bool} {text : List Char} (h : text.takeWhile p ≠ []) :
    Run p (text.takeWhile p) :=
  ⟨h, fun _ hc => List.all_eq_true.mp List.all_takeWhile _ hc⟩

theorem run_cons_takeWhile {p : Char → Bool} {c : Char} (hc : p c = true) (cs : List Char) :
    Run p (c :: cs.takeWhile p) := by
  have hrun : (c :: cs).takeWhile p = c :: cs.takeWhile p := List.takeWhile_cons_of_pos hc
  rw [← hrun]
  refine run_takeWhile ?_
  rw [hrun]
  exact List.cons_ne_nil _ _

theorem stops_drop_takeWhile (p : Char → Bool) (text : List Char) :
    Stops p (text.drop (text.takeWhile p).length) :=
  fun _ hc => not_of_head?_drop_takeWhile hc

theorem lineEnds_drop_restOfLine (text : List Char) :
    LineEnds (text.drop (restOfLine text).length) := by
  intro c hc
  simpa using not_of_head?_drop_takeWhile hc

/-- What begins with a sign and has the rest of its line behind it. -/
theorem line_restOfLine {c : Char} (hc : c ≠ '\n') (cs : List Char) {sign : List Char}
    (hsign : sign <+: c :: restOfLine cs) :
    Line sign (c :: restOfLine cs) (cs.drop (restOfLine cs).length) where
  begins := hsign
  within := by
    rw [List.mem_cons, not_or]
    exact ⟨hc.symm, not_mem_restOfLine cs⟩
  ends := lineEnds_drop_restOfLine cs

end Highlight1C.Text
