import Highlight1C.Proofs.Completion
import Highlight1C.Proofs.Lines
import Highlight1C.Proofs.ModuleGrammar
import Highlight1C.Proofs.QueryErrors

/-!
# Pointing at an error

An error token is one character, and no layout (`Language.error_text`). So it stands on the line that
its position names, in the column that its position names, whatever carriage returns the line loses
at its end, and the report on it points there with one caret (`tokenize_carets`).
-/

namespace Highlight1C

open Text

/-! ## Error tokens -/

theorem QueryLexer.Cause.Holds.not_space {cause : Cause} {m : Mode} {c : Char} {cs : List Char}
    (h : cause.Holds m c cs) : isSpace c = false := by
  cases h with
  | stray hc => exact hc.space
  | number hc =>
    have hclass : ∀ d ∈ digits ++ numericOperatorChars, isSpace d = false :=
      forall_mem_of_all (by decide)
    exact hclass c (mem_numeric (hc.imp_right And.left))
  | atSign | backslash | ending => rfl

/-- An error is one character that is no layout. -/
theorem Language.error_text {language : Language} {source : List Char} {t : Token}
    (ht : t ∈ (language.stream source).tokens) (hkind : t.kind = .error) :
    ∃ c, t.text = [c] ∧ isSpace c = false := by
  have hlexeme : t.toLexeme ∈ (language.stream source).lexemes := List.mem_map_of_mem ht
  obtain ⟨before, after, hsplit⟩ := List.append_of_mem hlexeme
  cases language with
  | module =>
    have hform := ModuleLexer.form_of_lexemes hsplit
    rw [hkind] at hform
    obtain ⟨c, htext, hstray⟩ := hform
    exact ⟨c, htext, hstray.space⟩
  | query =>
    rw [Language.lexemes_stream] at hsplit
    obtain ⟨front, back, hevents, -, -⟩ := lexemesOf_eq_split hsplit
    obtain ⟨c, m, htext, -, cause, hcause, -⟩ := QueryLexer.cause_of_events hevents hkind
    exact ⟨c, htext, hcause.not_space⟩

/-! ## Reports -/

namespace LineMap

/-- A character that is no carriage return keeps its place when a line is trimmed. -/
theorem trimReturns_append {c : Char} (hc : c ≠ '\r') (before behind : List Char) :
    trimReturns (before ++ c :: behind) = before ++ c :: trimReturns behind := by
  have hstop : (c :: before.reverse).dropWhile (· == '\r') = c :: before.reverse := by
    rw [List.dropWhile_cons, if_neg (by simpa using hc)]
  have hreverse : (before ++ c :: behind).reverse = behind.reverse ++ c :: before.reverse := by simp
  unfold trimReturns
  rw [hreverse, List.dropWhile_append, hstop]
  split
  · next hempty => simp [List.isEmpty_iff.mp hempty]
  · simp

/-- One character after another is the same as all of them at once. -/
theorem pushn_eq (s : String) (c : Char) (n : Nat) :
    s.pushn c n = s ++ String.ofList (List.replicate n c) := by
  rw [String.pushn_eq_repeat_push]
  induction n with
  | zero => simp [Nat.repeat]
  | succ n ih =>
    rw [Nat.repeat, ih, ← String.toList_inj]
    simp [List.replicate_succ']

/-- The report on one character: the warning with its place, the line, and one caret below the
column. -/
def pointer (place : Position) (line : List Char) (message : String) : String :=
  let number := toString place.line
  let gutter := String.ofList (List.replicate number.length ' ')
  let blanks := String.ofList (List.replicate (place.column - 1) ' ')
  s!"warning: {message}\n  --> {place.label}\n{gutter} |\n{number} | {String.ofList line}\n{gutter} | {blanks}^\n"

theorem report_of_line {m : LineMap} {span : Span} {line : List Char}
    (hline : m.line? span.start.line = some line) (hcarets : caretCount span = .ok 1)
    (message : String) : m.report span message = .ok (pointer span.start line message) := by
  unfold report
  simp only [hline, hcarets, pushn_eq]
  refine congrArg Except.ok ?_
  have hcaret : String.ofList (List.replicate 1 '^') ++ "\n" = "^\n" := by decide
  unfold pointer
  generalize toString span.start.line = number
  simp only [toString, String.empty_append, String.append_assoc, hcaret]

/-- A character of a source that is no layout stands in its column on its line, and the report on it
points there. -/
theorem report_character {c : Char} (hc : isSpace c = false) (before behind : List Char)
    (message : String) :
    ∃ quoted, (ofSource (before ++ c :: behind)).line? (Position.after before).line = some quoted ∧
      quoted[(Position.after before).column - 1]? = some c ∧
      (ofSource (before ++ c :: behind)).report ⟨.after before, .after (before ++ [c])⟩ message =
        .ok (pointer (.after before) quoted message) := by
  have hfeed : c ≠ '\n' := by
    rintro rfl
    cases hc
  -- so the line is trimmed behind the character, if at all
  have hreturn : c ≠ '\r' := by
    rintro rfl
    cases hc
  have hline : (ofSource (before ++ c :: behind)).line? (Position.after before).line =
      some (lastLine before ++ c :: trimReturns (restOfLine behind)) := by
    have hrest : restOfLine (c :: behind) = c :: restOfLine behind :=
      List.takeWhile_cons_of_pos (by simpa using hfeed)
    have hnumber : (Position.after before).line = before.count '\n' + 1 := Nat.add_comm ..
    rw [hnumber, line?, ofSource, lines_getElem?_append, hrest, Option.map_some,
      trimReturns_append hreturn]
  have hcolumn : (Position.after before).column - 1 = (lastLine before).length :=
    Nat.add_sub_cancel_left ..
  have hcarets : caretCount ⟨.after before, .after (before ++ [c])⟩ = .ok 1 := by
    have hcount : (before ++ [c]).count '\n' = before.count '\n' := by simp [hfeed]
    simp only [caretCount, Position.after, hcount, lastLine_concat before hfeed, if_true,
      List.length_append, List.length_singleton]
    rw [if_pos (by omega)]
    exact congrArg Except.ok (by omega)
  refine ⟨_, hline, ?_, ?_⟩
  · rw [hcolumn]
    simp
  · exact report_of_line hline hcarets message

end LineMap

/-- The caret report points at the character that was not recognised. In either language, for a
source of at most 2³² − 2 characters, each token of its stream can be reported, with any message: no
line is cut within a character, and no caret count runs below zero. For an error token the line that
its position names exists and is quoted, in the column of its position stands its character, and below
stands one caret behind as many blanks as there are columns before. -/
theorem tokenize_carets (language : Language) (source : List Char)
    (hsize : source.length ≤ sourceBound) :
    ∃ stream, tokenize language source = .ok (.ok stream) ∧
      (∀ n, LineMap.cutLine source n = .ok ((LineMap.ofSource source).line? n)) ∧
      ∀ t ∈ stream.tokens, ∀ message,
        (∃ text, (LineMap.ofSource source).report t.span message = .ok text) ∧
        (t.kind = .error → ∃ c quoted, t.text = [c] ∧
          (LineMap.ofSource source).line? t.span.start.line = some quoted ∧
          1 ≤ t.span.start.column ∧ quoted[t.span.start.column - 1]? = some c ∧
          (LineMap.ofSource source).report t.span message =
            .ok (LineMap.pointer t.span.start quoted message)) := by
  refine ⟨_, tokenize_eq hsize, LineMap.cutLine_eq source, fun t ht message => ?_⟩
  obtain ⟨before, after, hsplit⟩ := List.append_of_mem ht
  obtain ⟨hplaced, hsource⟩ := placed_of_tokens_eq hsplit
  have hspan : t.span = ⟨.after (before.flatMap (·.text)),
      .after (before.flatMap (·.text) ++ t.text)⟩ := congrArg Token.span hplaced
  refine ⟨?_, fun hkind => ?_⟩
  · rw [hspan]
    exact LineMap.exists_report _ _ _ message
  · obtain ⟨c, htext, hc⟩ := Language.error_text ht hkind
    rw [htext, List.append_assoc, List.singleton_append] at hsource
    obtain ⟨quoted, hline, hchar, hreport⟩ := LineMap.report_character hc
      (before.flatMap (·.text)) (after.flatMap (·.text)) message
    rw [hsource] at hline hreport
    rw [hspan, htext]
    exact ⟨c, quoted, rfl, hline, Nat.le_add_right 1 _, hchar, hreport⟩

/-- A tilde in module code, on a line that loses two carriage returns. -/
theorem tokenize_carets_returns :
    ['А', '\r', '\n', ' ', '~', '\r', '\r'].length ≤ sourceBound ∧
    ∃ stream t, tokenize .module ['А', '\r', '\n', ' ', '~', '\r', '\r'] = .ok (.ok stream) ∧
      t ∈ stream.tokens ∧ t.kind = .error ∧
      (LineMap.ofSource ['А', '\r', '\n', ' ', '~', '\r', '\r']).report t.span "stray" =
        .ok "warning: stray\n  --> 2:2\n  |\n2 |  ~\n  |  ^\n" := by
  have hsize : ['А', '\r', '\n', ' ', '~', '\r', '\r'].length ≤ sourceBound := by decide
  obtain ⟨stream, hstream, -, hreports⟩ :=
    tokenize_carets .module ['А', '\r', '\n', ' ', '~', '\r', '\r'] hsize
  cases hstream.symm.trans (tokenize_eq hsize)
  have htilde : (Language.stream .module ['А', '\r', '\n', ' ', '~', '\r', '\r']).tokens[2]?.map
      (fun t => (t.kind, t.span.start)) = some (.error, ⟨5, 2, 2⟩) := by decide +kernel
  obtain ⟨t, ht, heq⟩ := Option.map_eq_some_iff.mp htilde
  obtain ⟨hkind, hstart⟩ := Prod.mk.inj heq
  have hmem := List.mem_of_getElem? ht
  obtain ⟨c, quoted, -, hline, -, -, hreport⟩ := (hreports t hmem "stray").2 hkind
  rw [hstart] at hline hreport
  have hsecond : (LineMap.ofSource ['А', '\r', '\n', ' ', '~', '\r', '\r']).line? 2 =
      some [' ', '~'] := by decide
  cases hline.symm.trans hsecond
  refine ⟨hsize, _, t, hstream, hmem, hkind, hreport.trans (congrArg Except.ok ?_)⟩
  decide +kernel

end Highlight1C
