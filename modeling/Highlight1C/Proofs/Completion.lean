import Highlight1C.Command.Run
import Highlight1C.Proofs.Summary

/-!
# Inputs are dealt with to the end

Dealing with an input can break a contract in two places. A source may be too long
for the counters of its positions; and the caret report cannot mark a span that
runs backwards within a line. The second does not happen: a token has the span
between the ends of two texts, of which one begins with the other, and such a span
is never marked with a negative number of carets (`exists_caretCount`). So a run
deals with all of its inputs, unless one of them is a source of more than 2³² − 2
characters (`exists_processInputs`).
-/

namespace Highlight1C

/-! ## Carets -/

/-- A text that goes on within a line is not behind where it was. -/
theorem Position.column_after_append_le {a b : List Char}
    (h : (after a).line = (after (a ++ b)).line) :
    (after a).column ≤ (after (a ++ b)).column := by
  have hline : a.count '\n' + (after b).line = (after a).line := by
    rw [h, after_append]
    rfl
  have hfirst : (after b).line = 1 := by
    have hbefore : (after a).line = 1 + a.count '\n' := rfl
    omega
  have hbehind : 1 ≤ (after b).column := Nat.le_add_right 1 _
  rw [after_append, shift, if_pos hfirst]
  show 1 + (Text.lastLine a).length ≤ (Text.lastLine a).length + (after b).column
  omega

namespace LineMap

theorem exists_caretCount (a b : List Char) :
    ∃ carets, caretCount ⟨.after a, .after (a ++ b)⟩ = .ok carets := by
  unfold caretCount
  split
  · next hline =>
    rw [if_pos (Position.column_after_append_le hline)]
    exact ⟨_, rfl⟩
  · exact ⟨_, rfl⟩

theorem exists_report (m : LineMap) (a b : List Char) (message : String) :
    ∃ text, m.report ⟨.after a, .after (a ++ b)⟩ message = .ok text := by
  obtain ⟨carets, hcarets⟩ := exists_caretCount a b
  unfold report
  split
  · exact ⟨_, rfl⟩
  · simp only [hcarets]
    exact ⟨_, rfl⟩

end LineMap

/-! ## Inputs -/

/-- The tokens of a file that was highlighted are those of a source. -/
theorem tokens_of_highlightFile {fs : FileSystem} {path : String} {language : Option Language}
    {preferences : ScannerPreferences} {logging logging' : Logging} {highlight : Highlight}
    (h : highlightFile fs path language preferences logging = .ok (.ok highlight, logging')) :
    ∃ (language : Language) (source : List Char), highlight.tokens = language.stream source := by
  unfold highlightFile at h
  split at h
  · cases h
  next language _ =>
  simp only [] at h
  split at h
  · cases h
  next file loaded _ =>
  obtain ⟨⟨outcome, scanned⟩, hsource, h⟩ := bind_eq_ok h
  obtain ⟨rfl, -⟩ := highlightSource_eq_ok hsource
  cases h
  exact ⟨language, file.text, rfl⟩

namespace Command

variable {world : World} {s : State}

/-- If an input can be read as a text, the text has at most 2³² − 2 characters. -/
def Fits (world : World) (stdin : List UInt8) (input : String) : Prop :=
  if input = "-" then ∀ text, textOfBytes stdin = .ok text → text.length ≤ sourceBound
  else world.files.Fits input

/-- Nothing fits less when standard input has been read. -/
theorem Fits.of_left {stdin left : List UInt8} {input : String} (h : Fits world stdin input)
    (hleft : left = stdin ∨ left = []) : Fits world left input := by
  obtain rfl | rfl := hleft
  · exact h
  unfold Fits at h ⊢
  split
  · intro text htext
    have hempty : textOfBytes [] = .ok [] := by simp [textOfBytes, Text.decode, Text.decodeFrom]
    cases hempty.symm.trans htext
    exact Nat.zero_le _
  · next hfile =>
    rwa [if_neg hfile] at h

theorem exists_highlightStdin
    (hfits : ∀ text, textOfBytes s.stdin = .ok text → text.length ≤ sourceBound)
    (language : Option Language) (scanner : ScannerPreferences) :
    ∃ result s', highlightStdin s language scanner = .ok (result, s') ∧
      (s'.stdin = s.stdin ∨ s'.stdin = []) ∧
      ∀ highlight, result = .ok highlight →
        ∃ (language : Language) (source : List Char), highlight.tokens = language.stream source := by
  unfold highlightStdin
  split
  · exact ⟨_, _, rfl, .inl rfl, nofun⟩
  next language =>
  split
  · exact ⟨_, _, rfl, .inr rfl, nofun⟩
  next text htext =>
  have hlength := hfits text htext
  have hhighlighted {source : List Char} (hsource : source.length ≤ sourceBound) :
      ∃ result s', (highlightSource language source scanner s.logging >>= fun r =>
          pure (r.1.mapError (·.message), { s with stdin := [], logging := r.2 })) =
          .ok (result, s') ∧ (s'.stdin = s.stdin ∨ s'.stdin = []) ∧
        ∀ highlight, result = .ok highlight →
          ∃ (language : Language) (source : List Char), highlight.tokens = language.stream source := by
    obtain ⟨highlight, logging, hrun, htokens, -⟩ := highlightSource_eq hsource scanner s.logging
    rw [hrun]
    refine ⟨_, _, rfl, .inr rfl, fun highlight' h => ?_⟩
    cases h
    exact ⟨language, source, htokens⟩
  cases text with
  | nil => exact hhighlighted hlength
  | cons c rest =>
    simp only []
    split
    · exact hhighlighted (Nat.le_of_succ_le hlength)
    · exact hhighlighted hlength

theorem exists_highlightInput {input : String} (hfits : Fits world s.stdin input)
    (language : Option Language) (scanner : ScannerPreferences) :
    ∃ result s', highlightInput world s input language scanner = .ok (result, s') ∧
      (s'.stdin = s.stdin ∨ s'.stdin = []) ∧
      ∀ highlight, result = .ok highlight →
        ∃ (language : Language) (source : List Char), highlight.tokens = language.stream source := by
  unfold Fits at hfits
  unfold highlightInput
  split
  · next hstdin =>
    rw [if_pos hstdin] at hfits
    exact exists_highlightStdin hfits language scanner
  · next hfile =>
    rw [if_neg hfile] at hfits
    obtain ⟨outcome, logging, hrun⟩ := exists_highlightFile hfits language scanner s.logging
    rw [hrun]
    refine ⟨_, _, rfl, .inl rfl, fun highlight h => ?_⟩
    cases outcome with
    | error _ => cases h
    | ok _ =>
      cases h
      exact tokens_of_highlightFile hrun

/-- The first character that was not recognised can be pointed at. -/
theorem exists_reportFirstError {highlight : Highlight} {language : Language} {source : List Char}
    (htokens : highlight.tokens = language.stream source) (name : String) (logging : Logging) :
    ∃ logging', reportFirstError name highlight logging = .ok logging' := by
  unfold reportFirstError
  split
  · exact ⟨_, rfl⟩
  · next first others herrors =>
    have hmem : first ∈ (language.stream source).tokens := by
      rw [← htokens]
      exact (List.mem_filter.mp (herrors ▸ List.mem_cons_self)).1
    obtain ⟨before, after, hsplit⟩ := List.append_of_mem hmem
    have hspan : first.span = ⟨.after (before.flatMap (·.text)),
        .after (before.flatMap (·.text) ++ first.text)⟩ :=
      congrArg Token.span (placed_of_tokens_eq hsplit).1
    obtain ⟨text, hreport⟩ := LineMap.exists_report (.ofSource highlight.tokens.text)
      (before.flatMap (·.text)) first.text
      s!"{name}: unrecognized character {Text.quoteText first.text}"
    simp only [hspan, hreport]
    exact ⟨_, rfl⟩

theorem exists_processInput {input : String} (hfits : Fits world s.stdin input) (options : Options)
    (scanner : ScannerPreferences) (index : Nat) :
    ∃ s', processInput world options scanner s index input = .ok s' ∧
      (s'.stdin = s.stdin ∨ s'.stdin = []) := by
  let begun : State := { s with logging := s.logging.beginFile (inputName input) index }
  obtain ⟨result, s₁, hinput, hleft, hresult⟩ :=
    exists_highlightInput (s := begun) hfits options.language scanner
  simp only [processInput, begun, hinput]
  cases result with
  | error message => exact ⟨_, rfl, hleft⟩
  | ok highlight =>
    obtain ⟨language, source, htokens⟩ := hresult highlight rfl
    obtain ⟨logging, hreport⟩ :=
      exists_reportFirstError htokens (inputName input) s₁.logging.endFile
    simp only [bind, Except.bind, hreport]
    exact ⟨_, rfl, hleft⟩

/-- All inputs are dealt with. -/
theorem exists_processInputs {inputs : List String}
    (hfits : ∀ input ∈ inputs, Fits world s.stdin input) (options : Options)
    (scanner : ScannerPreferences) (index : Nat) :
    ∃ s', processInputs world options scanner s index inputs = .ok s' := by
  induction inputs generalizing s index with
  | nil => exact ⟨s, rfl⟩
  | cons input inputs ih =>
    obtain ⟨hfirst, hrest⟩ := List.forall_mem_cons.mp hfits
    obtain ⟨s₁, hrun, hleft⟩ := exists_processInput hfirst options scanner index
    obtain ⟨s', hs'⟩ := ih (fun other hother => (hrest other hother).of_left hleft) (index + 1)
    simp only [processInputs, hrun, bind, Except.bind]
    exact ⟨s', hs'⟩

end Command

end Highlight1C
