import Highlight1C.Proofs.Figures
import Highlight1C.Proofs.Lines
import Highlight1C.Proofs.Reading

/-!
# Counting lines

The lines of a source are counted in four ways: a line map has the offsets at
which lines begin and cuts the lines out between them, a position counts the
line feeds before it, and a file that is read has as many lines as its text
can be divided into, where a line feed at the end begins no further line.
All four agree (`lineCounts_agree`).

* `LineMap.count_ofSource`: there is one line more than there are line feeds;
* `LineMap.intercalate_lines`: the lines, with a line feed between any two of
  them, make up the source, but for the carriage returns at their ends;
* `Text.length_lines`: a text is divided into that many lines, or one less if
  the last one would be empty.
-/

namespace Highlight1C

open Text (linesInduction byteOrderMark decode encode)

/-! ## Carriage returns at the ends of lines -/

namespace Text

/-- Whether nothing but carriage returns stands in front of a line feed or the
end. -/
def endsLine (text : List Char) : Bool :=
  (text.dropWhile (· == '\r')).head?.all (· == '\n')

/-- A text without its runs of carriage returns that stand directly before a
line feed or the end. -/
def withoutReturns : List Char → List Char
  | [] => []
  | c :: cs => if c = '\r' ∧ endsLine cs then withoutReturns cs else c :: withoutReturns cs

end Text

namespace LineMap

open Text

theorem trimReturns_cons (c : Char) (cs : List Char) :
    trimReturns (c :: cs) = if c = '\r' ∧ trimReturns cs = [] then [] else c :: trimReturns cs := by
  unfold trimReturns
  rw [List.reverse_cons, List.dropWhile_append]
  by_cases hempty : cs.reverse.dropWhile (· == '\r') = []
  · by_cases hc : c = '\r' <;> simp [hempty, hc]
  · simp [hempty]

/-- A line without a line feed ends where it is nothing but carriage returns. -/
theorem endsLine_append {line rest : List Char} (hline : '\n' ∉ line) (hrest : LineEnds rest) :
    endsLine (line ++ rest) = true ↔ trimReturns line = [] := by
  induction line with
  | nil =>
    cases rest with
    | nil => simp [endsLine, trimReturns]
    | cons c cs =>
      obtain rfl : c = '\n' := hrest c rfl
      simp [endsLine, trimReturns]
  | cons c line ih =>
    obtain ⟨hc, hline⟩ := not_or.mp (mt List.mem_cons.mpr hline)
    rw [trimReturns_cons, List.cons_append]
    by_cases hreturn : c = '\r'
    · have hskip : endsLine (c :: (line ++ rest)) = endsLine (line ++ rest) := by
        simp [endsLine, hreturn]
      rw [hskip, ih hline]
      by_cases hempty : trimReturns line = [] <;> simp [hreturn, hempty]
    · simp [endsLine, hreturn, Ne.symm hc]

/-- What a line loses is what it is trimmed of. -/
theorem withoutReturns_append {line rest : List Char} (hline : '\n' ∉ line)
    (hrest : LineEnds rest) :
    withoutReturns (line ++ rest) = trimReturns line ++ withoutReturns rest := by
  induction line with
  | nil => rfl
  | cons c line ih =>
    have hline' : '\n' ∉ line := fun h => hline (List.mem_cons_of_mem c h)
    have hends := endsLine_append hline' hrest
    rw [List.cons_append, withoutReturns, trimReturns_cons, ih hline']
    by_cases h : c = '\r' ∧ trimReturns line = []
    · rw [if_pos ⟨h.1, hends.mpr h.2⟩, if_pos h, h.2]
    · rw [if_neg fun h' => h ⟨h'.1, hends.mp h'.2⟩, if_neg h]
      rfl

/-! ## The lines of a line map -/

theorem count_ofSource (source : List Char) :
    (ofSource source).count = 1 + source.count '\n' := by
  show (linesOf source).length = _
  induction source using linesInduction with
  | last line h => rw [lines_of_not_mem h, List.count_eq_zero.mpr h]; rfl
  | cons line rest h ih =>
    rw [lines_append_feed h, List.length_cons, ih, List.count_append, List.count_eq_zero.mpr h,
      List.count_cons_self]
    omega

theorem length_startsFrom (offset : Nat) (text : List Char) :
    (startsFrom offset text).length = text.count '\n' := by
  induction text generalizing offset with
  | nil => rfl
  | cons c cs ih =>
    rw [startsFrom]
    split
    · next hc => rw [List.length_cons, ih, hc, List.count_cons_self]
    · next hc => rw [ih, List.count_cons_of_ne hc]

/-- A line begins behind each line feed, and at the start. -/
theorem length_starts (source : List Char) : (starts source).length = (ofSource source).count := by
  rw [count_ofSource, starts, List.length_cons, length_startsFrom]
  omega

/-- There are lines from number one up to their count. -/
theorem isSome_line?_iff (m : LineMap) (n : Nat) :
    (m.line? n).isSome = true ↔ 1 ≤ n ∧ n ≤ m.count := by
  cases n with
  | zero => simp [line?]
  | succ n =>
    show (m.lines[n]?.map trimReturns).isSome = true ↔ _
    have hcount : m.count = m.lines.length := rfl
    rw [Option.isSome_map, hcount]
    by_cases h : n < m.lines.length
    · rw [List.getElem?_eq_getElem h]
      simp
      omega
    · rw [List.getElem?_eq_none (by omega)]
      simp
      omega

/-- All lines by their numbers. -/
theorem filterMap_line? (m : LineMap) :
    (List.range' 1 m.count).filterMap m.line? = m.lines.map trimReturns := by
  have hall : (List.range' 1 m.count).map m.line? = (m.lines.map trimReturns).map some := by
    refine List.ext_getElem (by simp [count]) fun k h₁ h₂ => ?_
    have hk : k < m.lines.length := by simpa using h₂
    have hline : m.line? (1 + k) = some (trimReturns m.lines[k]) := by
      rw [Nat.add_comm]
      show m.lines[k]?.map trimReturns = _
      rw [List.getElem?_eq_getElem hk]
      rfl
    simpa using hline
  have hfilter := congrArg (List.filterMap id) hall
  rw [List.filterMap_map, List.filterMap_map] at hfilter
  exact hfilter.trans (by simp)

/-- The lines with line feeds between them are the source, but for carriage
returns at the ends of lines. -/
theorem intercalate_lines (source : List Char) :
    ['\n'].intercalate ((ofSource source).lines.map trimReturns) = withoutReturns source := by
  show ['\n'].intercalate ((linesOf source).map trimReturns) = _
  induction source using linesInduction with
  | last line h =>
    have hnothing : LineEnds [] := nofun
    have hend := withoutReturns_append h hnothing
    rw [List.append_nil] at hend
    rw [lines_of_not_mem h, hend]
    simp [withoutReturns]
  | cons line rest h ih =>
    have hfeed : LineEnds ('\n' :: rest) := fun c hc => (Option.some.inj hc).symm
    have hkept : withoutReturns ('\n' :: rest) = '\n' :: withoutReturns rest := if_neg (by simp)
    rw [lines_append_feed h, withoutReturns_append h hfeed, hkept, ← ih]
    -- there is a line behind a line feed, even if it is empty
    cases hlines : linesOf rest with
    | nil =>
      have hcount : (linesOf rest).length = 1 + rest.count '\n' := count_ofSource rest
      rw [hlines, List.length_nil] at hcount
      omega
    | cons next lines => simp [List.intercalate_cons_cons]

end LineMap

/-! ## The lines of a file -/

namespace Text

/-- Each line feed ends a line, and what stands behind the last of them is one
more. -/
theorem length_endedLinesFrom (done : List (List Char)) (pending text : List Char) :
    (endedLinesFrom done pending text).length = done.length + text.count '\n' +
      if pending = [] ∧ text = [] ∨ text.getLast? = some '\n' then 0 else 1 := by
  induction text generalizing done pending with
  | nil =>
    unfold endedLinesFrom
    by_cases h : pending = [] <;> simp [h]
  | cons c cs ih =>
    rw [endedLinesFrom]
    split
    · next hc =>
      subst hc
      have hlast : ('\n' :: cs).getLast? = some '\n' ↔ cs = [] ∨ cs.getLast? = some '\n' := by
        cases cs <;> simp
      rw [ih, List.count_cons_self, List.length_cons]
      simp only [hlast, true_and, reduceCtorEq, and_false, false_or]
      omega
    · next hc =>
      have hlast : (c :: cs).getLast? = some '\n' ↔ cs.getLast? = some '\n' := by
        cases cs <;> simp [hc]
      rw [ih, List.count_cons_of_ne hc]
      simp only [hlast, reduceCtorEq, false_and, and_false, false_or]

/-- A text has as many lines as line feeds, and one more if something stands
behind the last of them. -/
theorem length_lines (text : List Char) :
    (lines text).length =
      text.count '\n' + if text = [] ∨ text.getLast? = some '\n' then 0 else 1 := by
  rw [lines, List.length_map, length_endedLinesFrom, List.length_nil, Nat.zero_add]
  simp only [true_and]

end Text

namespace SourceFile

/-- A file that is read has a description, with the lines that its text can be
divided into. -/
theorem lineCount_of_load {fs : FileSystem} {path : String} {timed : Bool} {logging : Logging}
    {file : SourceFile} (h : (load fs path timed logging).1 = .ok file) :
    file.info.lineCount = (Text.lines file.text).length := by
  unfold load at h
  split at h
  · cases h
  split at h
  · cases h
  simp only at h
  split at h
  · cases h
  · cases h
    rfl

/-- Any text within the limit can be read from a file, behind a byte order mark. -/
theorem exists_load {fs : FileSystem} {path : String} {text : List Char}
    (hholds : fs.Holds path (byteOrderMark ++ encode text))
    (hsize : (byteOrderMark ++ encode text).length ≤ Limits.current.maxFileSize) (timed : Bool)
    (logging : Logging) : ∃ file, (load fs path timed logging).1 = .ok file ∧ file.text = text := by
  have hbody : decode (dropMark (byteOrderMark ++ encode text)).1 = .ok text := by
    rw [decode_dropMark_eq_ok_iff]
    refine ⟨Text.byteOrderMarkChar :: text, ?_, rfl⟩
    rw [Text.decode_mark_append, Text.decode_encode]
  obtain ⟨logging', hload⟩ :=
    load_of_decode_ok (hholds.check hsize) hholds.read hbody timed logging
  exact ⟨_, congrArg Prod.fst hload, rfl⟩

end SourceFile

/-- The lines of a source of at most 2³² − 2 characters are counted alike
everywhere. A line map has one line more than there are line feeds, and as many
offsets at which lines begin. It has a line for each number from one to the
count, cut out between such offsets without fail, and for no other number; with
line feeds between them the lines are the source, without the runs of carriage
returns directly before a line feed or the end. The last line of the figures
about a source, kept or gathered afterwards, is that count, if there is anything
in the source. A file that is read with this text, as can be any text within
the limit for files, has that count as well, or one less if the source is empty
or ends in a line feed. -/
theorem lineCounts_agree (language : Language) (source : List Char)
    (hsize : source.length ≤ sourceBound) :
    let map := LineMap.ofSource source
    map.count = 1 + source.count '\n' ∧
    (LineMap.starts source).length = map.count ∧
    (∀ n, LineMap.cutLine source n = .ok (map.line? n)) ∧
    (∀ n, (map.line? n).isSome = true ↔ 1 ≤ n ∧ n ≤ map.count) ∧
    ['\n'].intercalate ((List.range' 1 map.count).filterMap map.line?) =
      Text.withoutReturns source ∧
    (∀ preferences logging, ∃ highlight logging',
      highlightSource language source preferences logging = .ok (.ok highlight, logging') ∧
      highlight.metrics.isSome = preferences.collectMetrics ∧
      (source ≠ [] → (Metrics.ofStream highlight.tokens).lastLine = map.count ∧
        ∀ m, highlight.metrics = some m → m.lastLine = map.count)) ∧
    (∀ fs path timed logging file, (SourceFile.load fs path timed logging).1 = .ok file →
      file.text = source → file.info.lineCount =
        if source = [] ∨ source.getLast? = some '\n' then map.count - 1 else map.count) ∧
    ∀ fs path, FileSystem.Holds fs path (byteOrderMark ++ encode source) →
      (byteOrderMark ++ encode source).length ≤ Limits.current.maxFileSize →
      ∀ timed logging, ∃ file,
        (SourceFile.load fs path timed logging).1 = .ok file ∧ file.text = source := by
  intro map
  have hcount : map.count = 1 + source.count '\n' := LineMap.count_ofSource source
  have hlast : source ≠ [] →
      (Metrics.ofStream (language.stream source)).lastLine = map.count := by
    intro hne
    have hfigures := (Metrics.counts_ofStream (language.stream source)).lastLine
    rw [hfigures, lastLine_stream, if_neg hne, hcount]
  refine ⟨hcount, LineMap.length_starts source, LineMap.cutLine_eq source, map.isSome_line?_iff,
    ?_, fun preferences logging => ?_, fun fs path timed logging file hload htext => ?_,
    fun fs path hholds hlimit => SourceFile.exists_load hholds hlimit⟩
  · rw [LineMap.filterMap_line?]
    exact LineMap.intercalate_lines source
  · obtain ⟨highlight, logging', hrun, -⟩ :=
      @highlightSource_eq language source hsize preferences logging
    obtain rfl := Except.ok.inj (highlightSource_eq_ok hrun).1
    refine ⟨_, logging', hrun, ?_, fun hne => ⟨hlast hne, fun m hm => ?_⟩⟩
    · cases hkeep : preferences.collectMetrics <;> simp [Highlight.ofSource, hkeep]
    · cases hkeep : preferences.collectMetrics with
      | false => simp [Highlight.ofSource, hkeep] at hm
      | true =>
        have hm' : Metrics.ofStream (language.stream source) = m := by
          simpa [Highlight.ofSource, hkeep] using hm
        rw [← hm', hlast hne]
  · rw [SourceFile.lineCount_of_load hload, Text.length_lines, htext, hcount]
    split <;> omega

/-- A module with carriage returns within and at the end of a line, and a line
feed at its end: three lines, the last of them empty, and two lines as a file. -/
theorem lineCounts_agree_returns :
    ['а', '\r', '\r', '\n', '\r', 'b', '\n'].length ≤ sourceBound ∧
    (LineMap.ofSource ['а', '\r', '\r', '\n', '\r', 'b', '\n']).count = 3 ∧
    ['\n'].intercalate ((List.range' 1 3).filterMap
      (LineMap.ofSource ['а', '\r', '\r', '\n', '\r', 'b', '\n']).line?) =
      ['а', '\n', '\r', 'b', '\n'] ∧
    ∃ file, (SourceFile.load (.single "a.1c" [0xef, 0xbb, 0xbf, 0xd0, 0xb0, 0x0d, 0x0d, 0x0a, 0x0d,
        0x62, 0x0a]) "a.1c" true .attentive).1 = .ok file ∧ file.info.lineCount = 2 := by
  have hsize : ['а', '\r', '\r', '\n', '\r', 'b', '\n'].length ≤ sourceBound := by decide
  obtain ⟨hcount, -, -, -, hjoin, -, hfile, hread⟩ := lineCounts_agree .module _ hsize
  have hthree : (LineMap.ofSource ['а', '\r', '\r', '\n', '\r', 'b', '\n']).count = 3 := by
    rw [hcount]
    decide
  obtain ⟨file, hload, htext⟩ := hread _ _ (FileSystem.holds_single "a.1c" _) (by decide) true
    .attentive
  refine ⟨hsize, hthree, ?_, file, hload, ?_⟩
  · rw [← hthree, hjoin]
    decide
  · rw [hfile _ _ _ _ file hload htext, hthree]
    rfl

end Highlight1C
