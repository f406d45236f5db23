import Highlight1C.Proofs.Position
import Highlight1C.Proofs.Text
import Highlight1C.Source.LineMap

/-!
# The lines of a source

A text without a line feed is one line, and a text with one is a line and the lines behind it
(`lines_of_not_mem`, `lines_append_feed`); `Text.linesInduction` is the induction that goes with it.

* `lines_getElem?_append`: the line on which a part of a source ends goes on with what follows the
  part, up to the next line feed;
* `cutLine_eq`: cutting a line out of the source between two byte offsets, from a list of those at
  which lines begin, gives the same lines, and never cuts a character apart.
-/

namespace Highlight1C

/-! ## Texts line by line -/

namespace Text

/-- A text is one line, or a line and a text behind its line feed. -/
@[elab_as_elim]
theorem linesInduction {motive : List Char → Prop} (last : ∀ line, '\n' ∉ line → motive line)
    (cons : ∀ line rest, '\n' ∉ line → motive rest → motive (line ++ '\n' :: rest))
    (text : List Char) : motive text := by
  by_cases h : '\n' ∈ text
  · obtain ⟨line, rest, heq, hline⟩ := List.eq_append_cons_of_mem h
    have hshorter : rest.length < text.length := by
      rw [heq, List.length_append, List.length_cons]
      omega
    rw [heq]
    exact cons line rest hline (linesInduction last cons rest)
  · exact last text h
termination_by text.length

theorem lastLine_of_not_mem {line : List Char} (h : '\n' ∉ line) : lastLine line = line := by
  simpa [lastLine, h] using lastLine_append [] line

theorem lastLine_append_feed (line rest : List Char) :
    lastLine (line ++ '\n' :: rest) = lastLine rest := by
  rw [lastLine_append, if_pos List.mem_cons_self]
  show lastLine (['\n'] ++ rest) = _
  rw [lastLine_append]
  split
  · rfl
  · next h => rw [lastLine_of_not_mem h]; rfl

theorem restOfLine_append_of_not_mem {line : List Char} (h : '\n' ∉ line) (rest : List Char) :
    restOfLine (line ++ rest) = line ++ restOfLine rest := by
  refine List.takeWhile_append_of_pos fun c hc => ?_
  rw [bne_iff_ne]
  rintro rfl
  exact h hc

theorem restOfLine_of_not_mem {line : List Char} (h : '\n' ∉ line) : restOfLine line = line := by
  simpa [restOfLine] using restOfLine_append_of_not_mem h []

theorem restOfLine_append_feed {line : List Char} (h : '\n' ∉ line) (rest : List Char) :
    restOfLine (line ++ '\n' :: rest) = line := by
  rw [restOfLine_append_of_not_mem h]
  exact List.append_nil line

theorem slice?_append (before middle after : List Char) :
    slice? (byteLength before) (byteLength (before ++ middle)) (before ++ (middle ++ after)) =
      some middle := by
  rw [slice?, byteLength_append, if_pos (Nat.le_add_right _ _), cut?_append]
  simp

end Text

/-! ## Lines -/

namespace LineMap

open Text

/-- The lines of a text. -/
abbrev linesOf (text : List Char) : List (List Char) :=
  divideFrom [] [] text

theorem divideFrom_append_of_not_mem {line : List Char} (h : '\n' ∉ line) (done : List (List Char))
    (pending rest : List Char) :
    divideFrom done pending (line ++ rest) = divideFrom done (line.reverse ++ pending) rest := by
  induction line generalizing pending with
  | nil => rfl
  | cons c cs ih =>
    obtain ⟨hc, hcs⟩ := not_or.mp (mt List.mem_cons.mpr h)
    rw [List.cons_append, divideFrom, if_neg (Ne.symm hc), ih hcs, List.reverse_cons,
      List.append_assoc]
    rfl

/-- The lines that are complete stand in front. -/
theorem divideFrom_eq (done : List (List Char)) (pending text : List Char) :
    divideFrom done pending text = done.reverse ++ divideFrom [] pending text := by
  induction text generalizing done pending with
  | nil => simp [divideFrom]
  | cons c cs ih =>
    rw [divideFrom, divideFrom]
    split
    · rw [ih, ih [pending.reverse]]
      simp
    · exact ih done (c :: pending)

theorem lines_of_not_mem {line : List Char} (h : '\n' ∉ line) : linesOf line = [line] := by
  have hline := divideFrom_append_of_not_mem h [] [] []
  rw [List.append_nil, List.append_nil] at hline
  rw [linesOf, hline, divideFrom, List.reverse_reverse]
  rfl

theorem lines_append_feed {line : List Char} (h : '\n' ∉ line) (rest : List Char) :
    linesOf (line ++ '\n' :: rest) = line :: linesOf rest := by
  rw [linesOf, divideFrom_append_of_not_mem h, divideFrom, if_pos rfl, divideFrom_eq]
  simp

/-- The line on which a part of a source ends goes on with what follows the part. -/
theorem lines_getElem?_append (a b : List Char) :
    (linesOf (a ++ b))[a.count '\n']? = some (lastLine a ++ restOfLine b) := by
  induction a using linesInduction with
  | last line h =>
    rw [List.count_eq_zero.mpr h, lastLine_of_not_mem h, ← restOfLine_append_of_not_mem h]
    induction line ++ b using linesInduction with
    | last text h => rw [lines_of_not_mem h, restOfLine_of_not_mem h]; rfl
    | cons text rest h _ => rw [lines_append_feed h, restOfLine_append_feed h]; rfl
  | cons line rest h ih =>
    rw [List.append_assoc, List.cons_append, lines_append_feed h, lastLine_append_feed, ← ih,
      List.count_append, List.count_cons_self, List.count_eq_zero.mpr h, Nat.zero_add]
    rfl

/-! ## Cutting at byte offsets -/

/-- The byte offsets behind the line feeds of a text that stands at an offset. -/
def startsFrom (offset : Nat) : List Char → List Nat
  | [] => []
  | c :: cs =>
    if c = '\n' then (offset + 1) :: startsFrom (offset + 1) cs
    else startsFrom (offset + c.utf8Size) cs

/-- The byte offsets at which the lines of a source begin. -/
def starts (source : List Char) : List Nat :=
  0 :: startsFrom 0 source

/-- The byte offsets of a line, counted from zero: from where it begins up to the line feed before
the next one, or to the end. -/
def bounds? (starts : List Nat) (total k : Nat) : Option (Nat × Nat) :=
  starts[k]?.map fun start => (start, (starts[k + 1]?.map (· - 1)).getD total)

/-- Line `n` as it is cut out of the source. -/
def cutLine (source : List Char) (n : Nat) : Except Fault (Option (List Char)) :=
  match n with
  | 0 => .ok none
  | k + 1 =>
    match bounds? (starts source) (byteLength source) k with
    | none => .ok none
    | some (start, stop) =>
      match slice? start stop source with
      | some line => .ok (some (trimReturns line))
      | none => .error .badCut

theorem startsFrom_append_of_not_mem {line : List Char} (h : '\n' ∉ line) (offset : Nat)
    (rest : List Char) :
    startsFrom offset (line ++ rest) = startsFrom (offset + byteLength line) rest := by
  induction line generalizing offset with
  | nil => rfl
  | cons c cs ih =>
    obtain ⟨hc, hcs⟩ := not_or.mp (mt List.mem_cons.mpr h)
    rw [List.cons_append, startsFrom, if_neg (Ne.symm hc), ih hcs, byteLength_cons, Nat.add_assoc]

/-- What the bounds of a line cut out is the line. -/
theorem slice_bounds? (before text : List Char) (k : Nat) :
    (bounds? (byteLength before :: startsFrom (byteLength before) text)
        (byteLength (before ++ text)) k).map (fun b => slice? b.1 b.2 (before ++ text)) =
      (linesOf text)[k]?.map some := by
  -- line by line, what has been cut off goes into `before`: the offsets are those of the whole source
  induction text using linesInduction generalizing before k with
  | last line h =>
    have hstarts := startsFrom_append_of_not_mem h (byteLength before) []
    rw [List.append_nil] at hstarts
    rw [hstarts, lines_of_not_mem h]
    cases k with
    | zero =>
      have hslice := slice?_append before line []
      rw [List.append_nil] at hslice
      exact congrArg some hslice
    | succ k => rfl
  | cons line rest h ih =>
    have hfeed : byteLength ['\n'] = 1 := rfl
    have hoffset : byteLength before + byteLength line + 1 =
        byteLength (before ++ (line ++ ['\n'])) := by
      rw [byteLength_append, byteLength_append, hfeed, Nat.add_assoc]
    have hsource : before ++ (line ++ '\n' :: rest) = before ++ (line ++ ['\n']) ++ rest := by simp
    rw [startsFrom_append_of_not_mem h, startsFrom, if_pos rfl, lines_append_feed h, hoffset]
    cases k with
    | zero =>
      have hstop : byteLength (before ++ (line ++ ['\n'])) - 1 = byteLength (before ++ line) := by
        rw [← hoffset, Nat.add_sub_cancel, byteLength_append]
      show some (slice? (byteLength before) (byteLength (before ++ (line ++ ['\n'])) - 1) _) = _
      rw [hstop, slice?_append]
      rfl
    | succ k =>
      rw [hsource]
      exact ih (before ++ (line ++ ['\n'])) k

/-- A line that is cut out at byte offsets is the line, and each such cut falls between two
characters. -/
theorem cutLine_eq (source : List Char) (n : Nat) :
    cutLine source n = .ok ((ofSource source).line? n) := by
  match n with
  | 0 => rfl
  | k + 1 =>
    have h := slice_bounds? [] source k
    simp only [cutLine, starts, line?, ofSource, List.nil_append] at h ⊢
    cases hbounds : bounds? (0 :: startsFrom 0 source) (byteLength source) k with
    | none =>
      have hnone : (linesOf source)[k]?.map some = none := by
        rw [← h]
        exact congrArg (Option.map _) hbounds
      rw [Option.map_eq_none_iff.mp hnone]
      rfl
    | some bounds =>
      have hsome : (linesOf source)[k]?.map some = some (slice? bounds.1 bounds.2 source) := by
        rw [← h]
        exact congrArg (Option.map _) hbounds
      obtain ⟨line, hline, hslice⟩ := Option.map_eq_some_iff.mp hsome
      simp only [← hslice, hline]
      rfl

end LineMap

end Highlight1C
