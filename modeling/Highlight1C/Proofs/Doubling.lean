/-!
# Doubled characters

A quote within a string is written twice. `double` doubles a character
throughout a text, and `undouble` reads each pair of it as one again
(`undouble_double`). In a doubled text the character comes in pairs only, so
that each run of it, from where it begins to where it ends, has an even length
(`evenRuns_double`).
-/

namespace Highlight1C.Text

/-- A text with every `q` doubled. -/
def double (q : Char) (text : List Char) : List Char :=
  text.flatMap fun c => if c = q then [q, q] else [c]

@[simp] theorem double_nil (q : Char) : double q [] = [] := rfl

@[simp] theorem double_append (q : Char) (a b : List Char) :
    double q (a ++ b) = double q a ++ double q b := by
  simp [double]

theorem double_cons_self (q : Char) (text : List Char) :
    double q (q :: text) = q :: q :: double q text := by
  simp [double]

theorem double_cons_of_ne {q c : Char} (h : c ≠ q) (text : List Char) :
    double q (c :: text) = c :: double q text := by
  simp [double, h]

theorem double_singleton_self (q : Char) : double q [q] = [q, q] := double_cons_self q []

/-- A text without the character is left as it is. -/
theorem double_of_not_mem {q : Char} {text : List Char} (h : q ∉ text) : double q text = text := by
  induction text with
  | nil => rfl
  | cons c text ih =>
    simp only [List.mem_cons, not_or] at h
    rw [double_cons_of_ne (Ne.symm h.1), ih h.2]

/-- Doubling brings in no other character. -/
theorem mem_double {q c : Char} {text : List Char} (h : c ∈ double q text) : c ∈ text := by
  obtain ⟨d, hd, hc⟩ := List.mem_flatMap.mp h
  split at hc
  · next hdq =>
    simp only [List.mem_cons, List.not_mem_nil, or_false, or_self] at hc
    exact hc ▸ hdq ▸ hd
  · exact List.mem_singleton.mp hc ▸ hd

/-- A text with every pair of `q` read as one. -/
def undouble (q : Char) : List Char → List Char
  | c :: d :: text => if c = q ∧ d = q then q :: undouble q text else c :: undouble q (d :: text)
  | text => text

theorem undouble_cons_of_ne {q c : Char} (h : c ≠ q) (text : List Char) :
    undouble q (c :: text) = c :: undouble q text := by
  cases text with
  | nil => rfl
  | cons d text => rw [undouble, if_neg fun hcd => h hcd.1]

theorem undouble_double (q : Char) (text : List Char) : undouble q (double q text) = text := by
  induction text with
  | nil => rfl
  | cons c text ih =>
    by_cases hc : c = q
    · rw [hc, double_cons_self, undouble, if_pos ⟨rfl, rfl⟩, ih]
    · rw [double_cons_of_ne hc, undouble_cons_of_ne hc, ih]

/-- Every run of `q` in a text that is not part of a longer one has an even
length. -/
def EvenRuns (q : Char) (text : List Char) : Prop :=
  ∀ before n after, text = before ++ List.replicate n q ++ after →
    before.getLast? ≠ some q → after.head? ≠ some q → 2 ∣ n

theorem evenRuns_double (q : Char) (text : List Char) : EvenRuns q (double q text) := by
  induction text with
  | nil =>
    intro before n after h _ _
    have hlen := congrArg List.length h
    simp only [double_nil, List.length_nil, List.length_append, List.length_replicate] at hlen
    exact ⟨0, by omega⟩
  | cons c text ih =>
    intro before n after h hbefore hafter
    -- a run further on is a run of the rest, because what stands before it still ends otherwise
    have hlast (d : Char) (before' : List Char) (h : (d :: before').getLast? ≠ some q) :
        before'.getLast? ≠ some q := by
      intro h'
      rw [List.getLast?_cons, h'] at h
      exact h rfl
    by_cases hc : c = q
    · rw [hc, double_cons_self] at h
      match before, n with
      | [], 0 => exact absurd (by rw [← (show _ = after from h)]; rfl) hafter
      | [], 1 =>
        have h' : q :: double q text = after := List.tail_eq_of_cons_eq h
        exact absurd (by rw [← h']; rfl) hafter
      | [], n + 2 =>
        have h' : double q text = [] ++ List.replicate n q ++ after :=
          List.tail_eq_of_cons_eq (List.tail_eq_of_cons_eq h)
        obtain ⟨m, hm⟩ := ih [] n after h' (by simp) hafter
        exact ⟨m + 1, by omega⟩
      | [d], n =>
        have hd : q = d := List.head_eq_of_cons_eq h
        exact absurd (by rw [hd]; rfl) hbefore
      | d :: e :: before', n =>
        have h' : double q text = before' ++ List.replicate n q ++ after :=
          List.tail_eq_of_cons_eq (List.tail_eq_of_cons_eq h)
        exact ih before' n after h' (hlast e _ (hlast d _ hbefore)) hafter
    · rw [double_cons_of_ne hc] at h
      match before, n with
      | [], 0 => exact ⟨0, rfl⟩
      | [], n + 1 => exact absurd (List.head_eq_of_cons_eq h) hc
      | d :: before', n =>
        exact ih before' n after (List.tail_eq_of_cons_eq h) (hlast d _ hbefore) hafter

end Highlight1C.Text
