import Highlight1C.Position

/-!
# Where a text ends

The position after a text in closed form: its bytes, its line feeds and the
characters of its last line.

* `advanceText_after`: passing a text character by character comes to that
  position, as long as no more than `sourceBound` characters are passed in
  all;
* `after_append`: the position after two texts is that after the second,
  moved by the first (`Position.shift`);
* `slice_between`: the span between two such positions covers the text
  between them.
-/

namespace Highlight1C

/-- A source of at most this many characters, 2³² − 2, keeps all counters
within their widths. -/
def sourceBound : Nat := 0xfffffffe

/-- The characters of a text after its last line feed. -/
def Text.lastLine (text : List Char) : List Char :=
  (text.reverse.takeWhile (· != '\n')).reverse

namespace Position

open Text

/-- The position after a text that stands at the start of a source. -/
def after (text : List Char) : Position where
  offset := byteLength text
  line := 1 + text.count '\n'
  column := 1 + (lastLine text).length

/-- A position of a text, when the text `behind` is put in front of it. The
column changes on the first line only. -/
def shift (behind : List Char) (p : Position) : Position where
  offset := byteLength behind + p.offset
  line := behind.count '\n' + p.line
  column := if p.line = 1 then (lastLine behind).length + p.column else p.column

theorem after_nil : after [] = start := rfl

end Position

/-! ## The last line -/

namespace Text

theorem lastLine_concat_feed (text : List Char) : lastLine (text ++ ['\n']) = [] := by
  simp [lastLine]

theorem lastLine_concat (text : List Char) {c : Char} (hc : c ≠ '\n') :
    lastLine (text ++ [c]) = lastLine text ++ [c] := by
  simp [lastLine, hc]

theorem lastLine_length_le (text : List Char) : (lastLine text).length ≤ text.length := by
  have h := (List.takeWhile_sublist (l := text.reverse) (· != '\n')).length_le
  simpa [lastLine] using h

/-- A text without a line feed goes on with the last line of what stands
before it; one with a line feed begins its own. -/
theorem lastLine_append (a b : List Char) :
    lastLine (a ++ b) = if '\n' ∈ b then lastLine b else lastLine a ++ b := by
  simp only [lastLine, List.reverse_append, List.takeWhile_append, List.length_reverse]
  by_cases h : '\n' ∈ b
  · have hne : (b.reverse.takeWhile (· != '\n')).length ≠ b.length := by
      intro e
      have hp := List.takeWhile_prefix (l := b.reverse) (· != '\n')
      have he := hp.eq_of_length (by rw [e, List.length_reverse])
      have hall := List.all_takeWhile (l := b.reverse) (p := (· != '\n'))
      rw [he, List.all_eq_true] at hall
      simpa using hall '\n' (by simpa using h)
    rw [if_neg hne, if_pos h]
  · have hall : b.reverse.takeWhile (· != '\n') = b.reverse := by
      have hne : ∀ x ∈ b.reverse, (x != '\n') = true := by
        intro x hx
        rw [bne_iff_ne]
        rintro rfl
        exact h (List.mem_reverse.mp hx)
      have happend : (b.reverse ++ []).takeWhile (· != '\n') = b.reverse ++ [] :=
        List.takeWhile_append_of_pos hne
      simpa using happend
    rw [hall, List.length_reverse, if_pos rfl, if_neg h, List.reverse_append, List.reverse_reverse]

theorem byteLength_le (text : List Char) : byteLength text ≤ 4 * text.length := by
  induction text with
  | nil => simp
  | cons c cs ih =>
    have := c.utf8Size_le_four
    rw [byteLength_cons, List.length_cons]
    omega

end Text

/-! ## Passing a text -/

namespace Position

open Text

/-- One more character, as long as the counters have room for it. -/
theorem advance_after {text : List Char} {c : Char} (h : text.length < sourceBound) :
    (after text).advance c = .ok (after (text ++ [c])) := by
  have hs : sourceBound = 0xfffffffe := rfl
  have ho : (after text).offset + c.utf8Size < offsetBound := by
    have hb := byteLength_le text
    have h4 := c.utf8Size_le_four
    show byteLength text + c.utf8Size < 0x10000000000000000
    omega
  unfold advance
  by_cases hc : c = '\n'
  · have hl : (after text).line + 1 < countBound := by
      have hn : text.count '\n' ≤ text.length := List.count_le_length
      show 1 + text.count '\n' + 1 < 0x100000000
      omega
    rw [if_pos hc, if_pos ⟨ho, hl⟩]
    simp [after, hc, lastLine_concat_feed, Nat.add_assoc]
  · have hl : (after text).column + 1 < countBound := by
      have hn := lastLine_length_le text
      show 1 + (lastLine text).length + 1 < 0x100000000
      omega
    rw [if_neg hc, if_pos ⟨ho, hl⟩]
    simp [after, hc, lastLine_concat _ hc, Nat.add_assoc]

/-- Passing the text `b` after the text `a` comes to the end of both. -/
theorem advanceText_after (a b : List Char) (h : (a ++ b).length ≤ sourceBound) :
    (after a).advanceText b = .ok (after (a ++ b)) := by
  induction b generalizing a with
  | nil => simp
  | cons c cs ih =>
    have hlen : a.length < sourceBound := by
      rw [List.length_append, List.length_cons] at h; omega
    rw [advanceText_cons, advance_after hlen]
    have := ih (a ++ [c]) (by simpa using h)
    simpa [Except.bind] using this

/-- However far a text goes, one more character comes to its end, if it can be
passed. -/
theorem advance_eq_ok {text : List Char} {c : Char} {p : Position}
    (h : (after text).advance c = .ok p) : p = after (text ++ [c]) := by
  unfold advance at h
  by_cases hc : c = '\n'
  · rw [if_pos hc] at h
    split at h
    · cases h
      simp [after, hc, lastLine_concat_feed, Nat.add_assoc]
    · cases h
  · rw [if_neg hc] at h
    split at h
    · cases h
      simp [after, hc, lastLine_concat _ hc, Nat.add_assoc]
    · cases h

theorem advanceText_eq_ok {a b : List Char} {p : Position}
    (h : (after a).advanceText b = .ok p) : p = after (a ++ b) := by
  induction b generalizing a with
  | nil =>
    cases h
    rw [List.append_nil]
  | cons c cs ih =>
    rw [advanceText_cons] at h
    obtain ⟨q, hc, h⟩ := bind_eq_ok h
    rw [advance_eq_ok hc] at h
    have hrest := ih h
    rwa [List.append_assoc] at hrest

/-- Passing a text from the start of a source. -/
theorem advanceText_start {text : List Char} (h : text.length ≤ sourceBound) :
    start.advanceText text = .ok (after text) := by
  simpa [after_nil] using advanceText_after [] text (by simpa using h)

/-- The position after two texts, from the position after the second. -/
theorem after_append (a b : List Char) : after (a ++ b) = (after b).shift a := by
  have hline : (after b).line = 1 ↔ b.count '\n' = 0 := by
    show 1 + b.count '\n' = 1 ↔ _
    omega
  unfold shift
  by_cases h : '\n' ∈ b
  · have hpos : 0 < b.count '\n' := List.count_pos_iff.mpr h
    rw [if_neg (by rw [hline]; omega)]
    simp [after, lastLine_append, h, Nat.add_left_comm]
  · have h0 : b.count '\n' = 0 := List.count_eq_zero.mpr h
    have hb : lastLine b = b := by simpa [lastLine, h] using lastLine_append [] b
    rw [if_pos (hline.mpr h0)]
    simp [after, lastLine_append, h, hb, Nat.add_left_comm]

end Position

/-! ## Spans between two ends -/

namespace Span

open Text

/-- The span between the ends of two texts, one of which begins with the
other, is a span. -/
theorem between_after (a b : List Char) :
    between (.after a) (.after (a ++ b)) = .ok ⟨.after a, .after (a ++ b)⟩ := by
  simp only [between, Position.after, byteLength_append]
  rw [if_pos (by omega)]

/-- What the span between two ends covers. -/
theorem slice_between (a b rest : List Char) :
    slice ⟨.after a, .after (a ++ b)⟩ (a ++ b ++ rest) = .ok b := by
  simp only [slice, slice?, Position.after, byteLength_append]
  rw [if_pos (by omega), List.append_assoc, cut?_append, Nat.add_sub_cancel_left]
  simp

theorem length_between (a b : List Char) :
    length ⟨.after a, .after (a ++ b)⟩ = .ok (byteLength b) := by
  simp only [length, Position.after, byteLength_append]
  rw [if_pos (by omega), Nat.add_sub_cancel_left]

end Span

end Highlight1C
