import Highlight1C.Proofs.Cutting
import Highlight1C.Proofs.QueryNumbers

/-!
# Queries that are cut off

Like those of numbers, the other recognisers of a query find the same in a
text that is cut off behind what they found, and nothing where they found
nothing (`lineComment?_take` and so on). A move is thus the same when the
text is cut off (`codeMove_take`, `stringMove?_take`), but for two things. An
operator at the end of a text no longer has a letter or digit behind it. And
digits that are no number, because of what follows them, may be one when the
text is cut off within them; but then each of them is a token of its own
(`Stray.eventsFrom_eq`), and the cut is behind one of these tokens.

So a query can be cut behind every token that is neither a modifier of a
string nor a digit or sign that nothing begins with (`Settled`, `cuttable`).
-/

namespace Highlight1C.QueryLexer

open Text

/-! ## Comments -/

theorem lineComment?_take {c : Char} {cs more : List Char} {n : Nat}
    (h : lineComment? c cs = some more) (hn : more.length ≤ n) :
    lineComment? c (cs.take n) = some more := by
  unfold lineComment? at h ⊢
  split at h
  · next hc =>
    cases h
    rw [restOfLine_take hn, if_pos]
    refine hc.imp_right fun ⟨hslash, hd⟩ => ⟨hslash, ?_⟩
    obtain ⟨ds, rfl⟩ := List.head?_eq_some_iff.mp hd
    rw [head?_take_of_pos (Nat.lt_of_lt_of_le (Nat.succ_pos _) hn)]
    exact hd
  · cases h

theorem lineComment?_take_eq_none {c : Char} {cs : List Char} (n : Nat)
    (h : lineComment? c cs = none) : lineComment? c (cs.take n) = none := by
  unfold lineComment? at h ⊢
  split at h
  · cases h
  · next hc =>
    rw [if_neg]
    exact fun hd => hc (hd.imp_right fun ⟨hslash, hd⟩ => ⟨hslash, head?_of_head?_take hd⟩)

/-- A comment is still whole when the text is cut off behind it. -/
theorem throughClose_take {text : List Char} {n : Nat} (hn : (throughClose text).length ≤ n) :
    throughClose (text.take n) = throughClose text := by
  induction text generalizing n with
  | nil => rw [List.take_nil]
  | cons c cs ih =>
    rw [throughClose_cons] at hn
    split at hn
    · next hc =>
      obtain ⟨n, rfl⟩ : ∃ m, n = m + 2 := ⟨n - 2, (Nat.sub_add_cancel hn).symm⟩
      rw [List.take_succ_cons, throughClose_cons, throughClose_cons,
        head?_take_of_pos (Nat.succ_pos n), if_pos hc, if_pos hc]
    · next hc =>
      obtain ⟨n, rfl⟩ : ∃ m, n = m + 1 :=
        ⟨n - 1, (Nat.sub_add_cancel (Nat.le_trans (Nat.succ_pos _) hn)).symm⟩
      rw [List.take_succ_cons, throughClose_cons, throughClose_cons, if_neg hc,
        if_neg (fun hd => hc ⟨hd.1, head?_of_head?_take hd.2⟩), ih (Nat.le_of_succ_le_succ hn)]

/-- A block comment of either kind goes through the first `*/` behind its
opening. -/
theorem blockComment?_eq (c : Char) (cs : List Char) :
    blockComment? c cs =
      if c = '/' ∧ cs.head? = some '*' then
        some (if cs.tail.head? = some '!' then .directive else .comment, '*' :: throughClose cs.tail)
      else none := by
  unfold blockComment?
  split
  · next hc => rw [if_neg (fun hd => hc hd.1)]
  · next hc =>
    have hc := Decidable.not_not.mp hc
    split
    · next body =>
      have hmark : throughClose ('!' :: body) = '!' :: throughClose body := by
        rw [throughClose_cons, if_neg (by simp)]
      rw [if_pos ⟨hc, rfl⟩, List.tail_cons, hmark, List.head?_cons, if_pos rfl]
    · next body hbody =>
      rw [if_pos ⟨hc, rfl⟩, List.tail_cons, if_neg]
      intro hd
      obtain ⟨rest, rfl⟩ := List.head?_eq_some_iff.mp hd
      exact hbody rest rfl
    · next hstar =>
      rw [if_neg]
      rintro ⟨-, hd⟩
      obtain ⟨rest, rfl⟩ := List.head?_eq_some_iff.mp hd
      exact hstar rest rfl

theorem blockComment?_take {c : Char} {cs more : List Char} {kind : TokenKind} {n : Nat}
    (h : blockComment? c cs = some (kind, more)) (hn : more.length ≤ n) :
    blockComment? c (cs.take n) = some (kind, more) := by
  rw [blockComment?_eq] at h ⊢
  split at h
  · next hc =>
    obtain ⟨body, rfl⟩ := List.head?_eq_some_iff.mp hc.2
    cases h
    rw [List.tail_cons, List.length_cons] at hn
    obtain ⟨n, rfl⟩ : ∃ m, n = m + 1 := ⟨n - 1, by omega⟩
    have hlen := Nat.le_of_succ_le_succ hn
    have hmark : (body.take n).head? = body.head? := by
      cases body with
      | nil => rw [List.take_nil]
      | cons d ds =>
        refine head?_take_of_pos (Nat.lt_of_lt_of_le ?_ hlen)
        rw [throughClose_cons]
        split
        · exact Nat.succ_pos _
        · exact Nat.succ_pos _
    rw [List.take_succ_cons, if_pos ⟨hc.1, rfl⟩, List.tail_cons, List.tail_cons, hmark,
      throughClose_take hlen]
  · cases h

theorem blockComment?_take_eq_none {c : Char} {cs : List Char} (n : Nat)
    (h : blockComment? c cs = none) : blockComment? c (cs.take n) = none := by
  rw [blockComment?_eq] at h ⊢
  split at h
  · cases h
  · next hc => rw [if_neg (fun hd => hc ⟨hd.1, head?_of_head?_take hd.2⟩)]

/-! ## Strings and words -/

theorem quoteAt?_take_of_pos {text : List Char} {n : Nat} (hn : 0 < n) :
    quoteAt? (text.take n) = quoteAt? text := by
  rw [quoteAt?, head?_take_of_pos hn, quoteAt?]

theorem quoteAt?_take_eq_none {text : List Char} (n : Nat) (h : quoteAt? text = none) :
    quoteAt? (text.take n) = none := by
  cases n with
  | zero => rfl
  | succ n => rwa [quoteAt?_take_of_pos (Nat.succ_pos n)]

theorem stringOpening?_take {c quote : Char} {cs modifier : List Char} {n : Nat}
    (h : stringOpening? c cs = some (modifier, quote)) (hn : modifier.length ≤ n) :
    stringOpening? c (cs.take n) = some (modifier, quote) := by
  unfold stringOpening? at h ⊢
  split at h
  · next hc =>
    rw [if_pos hc]
    exact h
  next hquote =>
  rw [if_neg hquote]
  split at h
  · next hc =>
    rw [if_pos hc]
    obtain ⟨q, -, heq⟩ := Option.map_eq_some_iff.mp h
    cases heq
    rwa [quoteAt?_take_of_pos hn]
  next hletter =>
  rw [if_neg hletter]
  split at h
  · next hc =>
    rw [if_pos hc]
    simp only [] at h ⊢
    split at h
    · cases h
    · next hname =>
      obtain ⟨q, -, heq⟩ := Option.map_eq_some_iff.mp h
      cases heq
      rw [List.length_cons] at hn
      rw [takeWhile_take (by omega), if_neg hname, List.drop_take,
        quoteAt?_take_of_pos (by omega)]
      exact h
  · cases h

theorem stringOpening?_take_eq_none {c : Char} {cs : List Char} (n : Nat)
    (h : stringOpening? c cs = none) : stringOpening? c (cs.take n) = none := by
  unfold stringOpening? at h ⊢
  split at h
  · cases h
  next hquote =>
  rw [if_neg hquote]
  split at h
  · next hc =>
    rw [if_pos hc, quoteAt?_take_eq_none n (Option.map_eq_none_iff.mp h)]
    rfl
  next hletter =>
  rw [if_neg hletter]
  split at h
  · next hc =>
    rw [if_pos hc]
    simp only [] at h ⊢
    split at h
    · next hname =>
      rw [takeWhile_take_eq_nil n (List.isEmpty_iff.mp hname)]
      rfl
    · have hdrop : quoteAt? ((cs.take n).drop ((cs.take n).takeWhile isAsciiWordChar).length) =
          none := by
        rcases Nat.lt_or_ge n (cs.takeWhile isAsciiWordChar).length with hlt | hge
        · -- the cut is within the name
          have hlen : (cs.take n).length ≤ ((cs.take n).takeWhile isAsciiWordChar).length := by
            rw [← List.take_takeWhile, List.length_take, List.length_take]
            omega
          rw [List.drop_eq_nil_of_le hlen]
          rfl
        · rw [takeWhile_take hge, List.drop_take]
          exact quoteAt?_take_eq_none _ (Option.map_eq_none_iff.mp h)
      rw [hdrop]
      split
      · rfl
      · rfl
  · next hc => rw [if_neg hc]

theorem wordTail?_take {c : Char} {cs more : List Char} {n : Nat} (h : wordTail? c cs = some more)
    (hn : more.length ≤ n) : wordTail? c (cs.take n) = some more := by
  unfold wordTail? at h ⊢
  split at h
  · next hc =>
    rw [if_pos hc]
    cases cs with
    | nil => cases h
    | cons d ds =>
      simp only [] at h
      split at h
      · next hd =>
        cases h
        rw [List.length_cons] at hn
        obtain ⟨n, rfl⟩ : ∃ m, n = m + 1 := ⟨n - 1, by omega⟩
        simp only [List.take_succ_cons]
        rw [if_pos hd, takeWhile_take (Nat.le_of_succ_le_succ hn)]
      · cases h
  next hat =>
  rw [if_neg hat]
  split at h
  · next hc =>
    cases h
    rw [if_pos hc, takeWhile_take hn]
  · cases h

theorem wordTail?_take_eq_none {c : Char} {cs : List Char} (n : Nat) (h : wordTail? c cs = none) :
    wordTail? c (cs.take n) = none := by
  unfold wordTail? at h ⊢
  split at h
  · next hc =>
    rw [if_pos hc]
    cases cs with
    | nil => rw [List.take_nil]
    | cons d ds =>
      cases n with
      | zero => rfl
      | succ n =>
        simp only [] at h
        simp only [List.take_succ_cons]
        split at h
        · cases h
        · next hd => rw [if_neg hd]
  next hat =>
  rw [if_neg hat]
  split at h
  · cases h
  · next hc => rw [if_neg hc]

/-! ## Moves outside strings -/

/-- A digit, a sign or a point is an operator or begins a number. -/
theorem codeMove_of_numeric {c : Char} (hc : c ∈ digits ++ numericOperatorChars)
    (nameExpected : Bool) (cs : List Char) :
    codeMove nameExpected c cs =
      if isOperator c cs then
        .token .operator c [] (.code (nameExpected || (c == '.' && cs.head?.any isNameStart)))
      else numberMove nameExpected c cs := by
  have hclass : ∀ d ∈ digits ++ numericOperatorChars, isSpace d = false ∧ d ≠ '\\' ∧ d ≠ '#' ∧
      d ≠ '/' ∧ isQuote d = false ∧ d ∉ modifierLetters ∧ d ≠ '_' ∧ d ≠ '@' ∧
      isNameStart d = false := forall_mem_of_all (by decide)
  obtain ⟨hspace, hback, hhash, hslash, hquote, hletter, hunderscore, hat, hname⟩ := hclass c hc
  have hline : lineComment? c cs = none := by simp [lineComment?, hhash, hslash]
  have hblock : blockComment? c cs = none := by simp [blockComment?, hslash]
  have hopening : stringOpening? c cs = none := by simp [stringOpening?, hquote, hletter, hunderscore]
  have hword : wordTail? c cs = none := by simp [wordTail?, hat, hname]
  unfold codeMove
  rw [hspace, if_neg Bool.false_ne_true, if_neg (fun h => hback h.1), hline, hblock]
  simp only [hopening, hword]

theorem isOperator_take {c : Char} {cs : List Char} {n : Nat}
    (hn : c ∈ numericOperatorChars → 0 < n) : isOperator c (cs.take n) = isOperator c cs := by
  unfold isOperator
  by_cases hc : c ∈ numericOperatorChars
  · rw [head?_take_of_pos (hn hc)]
  · have hc' : numericOperatorChars.contains c = false := by simpa using hc
    rw [hc']
    rfl

/-- A move outside strings is the same when the text is cut off at the end of
what it takes or further on, if a sign or point has something behind it, and
a digit or sign that begins no number has the cut behind the digits that
follow it. -/
theorem codeMove_take {nameExpected : Bool} {c : Char} {cs : List Char} {move : Move State}
    {n : Nat} (h : codeMove nameExpected c cs = move) (hn : move.further ≤ n)
    (hnumeric : c ∈ numericOperatorChars → 0 < n)
    (hbad : move = .token .error c [] (.code nameExpected) →
      c.isDigit = true ∨ isSign c = true → (cs.takeWhile Char.isDigit).length < n) :
    codeMove nameExpected c (cs.take n) = move := by
  unfold codeMove at h ⊢
  split at h
  · next hc =>
    subst h
    rw [if_pos hc, takeWhile_take hn]
  next hspace =>
  rw [if_neg hspace]
  split at h
  · next hc =>
    subst h
    rw [head?_take_of_pos hn, if_pos hc]
  next hback =>
  rw [if_neg (fun hd => hback ⟨hd.1, head?_of_head?_take hd.2⟩)]
  split at h
  · next hline =>
    subst h
    rw [lineComment?_take hline hn]
  next hline =>
  rw [lineComment?_take_eq_none n hline]
  split at h
  · next hblock =>
    subst h
    rw [blockComment?_take hblock hn]
  next hblock =>
  rw [blockComment?_take_eq_none n hblock]
  simp only [isOperator_take hnumeric]
  split at h
  · next hop =>
    subst h
    rw [if_pos hop]
    by_cases hdot : c = '.'
    · rw [head?_take_of_pos (hnumeric (by rw [hdot]; decide))]
    · have hflag : (c == '.') = false := by simpa using hdot
      rw [hflag]
      rfl
  next hop =>
  rw [if_neg hop]
  split at h
  · next hopening =>
    subst h
    rw [stringOpening?_take hopening hn]
  next hopening =>
  rw [stringOpening?_take_eq_none n hopening]
  split at h
  · next hword =>
    subst h
    rw [wordTail?_take hword hn]
  next hword =>
  rw [wordTail?_take_eq_none n hword]
  exact numberMove_take h hn hbad

/-! ## Moves within a string -/

theorem escapeTail?_take {cs more : List Char} {n : Nat} (h : escapeTail? cs = some more)
    (hn : more.length ≤ n) : escapeTail? (cs.take n) = some more := by
  have hpos := List.length_pos_iff.mpr (escapeTail?_isPrefix h).2
  obtain ⟨n, rfl⟩ : ∃ m, n = m + 1 := ⟨n - 1, by omega⟩
  cases cs with
  | nil => cases h
  | cons c cs =>
    have hcut (p : Char → Bool) (k : Nat) :
        ((cs.take n).take k).takeWhile p = ((cs.take k).takeWhile p).take n := by
      rw [List.take_takeWhile, List.take_take, List.take_take, Nat.min_comm]
    have hfull (k : Nat) (hk : ¬ ((cs.take k).takeWhile isHexDigit).length = k) :
        ¬ (((cs.take k).takeWhile isHexDigit).take n).length = k := by
      have hle := (List.takeWhile_prefix (l := cs.take k) isHexDigit).length_le
      rw [List.length_take] at hle ⊢
      omega
    simp only [escapeTail?] at h
    simp only [List.take_succ_cons, escapeTail?, hcut]
    split at h
    · next hc =>
      cases h
      rw [List.take_of_length_le (Nat.le_of_succ_le_succ hn), if_pos hc]
    next hu =>
    rw [if_neg (fun hc => hfull 4 (fun hlen => hu ⟨hc.1, hlen⟩) hc.2)]
    split at h
    · next hc =>
      cases h
      rw [List.take_of_length_le (Nat.le_of_succ_le_succ hn), if_pos hc]
    next hU =>
    rw [if_neg (fun hc => hfull 8 (fun hlen => hU ⟨hc.1, hlen⟩) hc.2)]
    split at h
    · next hc =>
      cases h
      rw [List.take_of_length_le (Nat.le_of_succ_le_succ hn), if_pos hc]
    next hx =>
    rw [if_neg (fun hc => hx ⟨hc.1, fun hnil => hc.2 (by rw [hnil, List.take_nil])⟩)]
    split at h
    · next hc =>
      cases h
      rw [List.take_of_length_le (Nat.le_of_succ_le_succ hn), if_pos hc]
    · next hc =>
      rw [if_neg hc]
      exact h

/-- A move within a string does not depend on what follows what it takes. -/
theorem stringMove?_take {nameExpected : Bool} {quote c : Char} {held cs : List Char}
    {move : Move State} {n : Nat} (h : stringMove? nameExpected quote held c cs = some move)
    (hn : move.further ≤ n) : stringMove? nameExpected quote held c (cs.take n) = some move := by
  unfold stringMove? at h ⊢
  simp only [] at h ⊢
  split at h
  · next hc =>
    cases h
    rw [if_pos hc, takeWhile_take hn]
  next hplain =>
  rw [if_neg hplain]
  split at h
  · next hc =>
    rw [if_pos hc]
    split at h
    · next hd =>
      cases h
      rw [head?_take_of_pos hn, if_pos hd]
    · next hd =>
      rw [if_neg (fun hd' => hd (head?_of_head?_take hd'))]
      exact h
  next hquote =>
  rw [if_neg hquote]
  split at h
  · next hc =>
    rw [if_pos hc]
    exact h
  next hforeign =>
  rw [if_neg hforeign]
  split at h
  · next hescape =>
    split at h
    · next hc =>
      cases h
      rw [escapeTail?_take hescape hn]
      exact if_pos hc
    · cases h
  · next hescape =>
    rw [escapeTail?_eq_none hescape, List.take_nil]
    exact h

/-! ## Digits that are no number -/

theorem fraction?_eq_none_of_mark {whole rest : List Char} (hne : whole ≠ [])
    (h : fraction? whole rest = none) (whole' : List Char) : fraction? whole' rest = none := by
  cases rest with
  | nil => rfl
  | cons f rest =>
    rw [fraction?_cons] at h ⊢
    split at h
    · next hf =>
      rw [if_pos hf]
      split at h
      · next hdigits => rw [if_pos hdigits]
      · cases h
    next hf =>
    rw [if_neg hf]
    split at h
    · cases h
    · next hmark =>
      rw [if_neg hmark, Option.map_eq_none_iff.mp h]
      split
      · rfl
      · rfl

/-- Digits that are not all octal go on with an `8` or a `9` behind the octal
ones. -/
theorem octal_or_end {ds : List Char} (hds : ∀ d ∈ ds, d.isDigit = true) (rest : List Char) :
    (∀ d ∈ ds, isOctalDigit d = true) ∨
      ((ds ++ rest).drop ((ds ++ rest).takeWhile isOctalDigit).length).head?.any
        ('8' :: '9' :: fractionMarks).contains = true := by
  induction ds with
  | nil => exact .inl nofun
  | cons d ds ih =>
    rw [List.cons_append, List.takeWhile_cons]
    split
    · next hd =>
      exact (ih fun e he => hds e (List.mem_cons_of_mem _ he)).imp_left fun hall =>
        List.forall_mem_cons.mpr ⟨hd, hall⟩
    · next hoctal =>
      have hend : ∀ e ∈ digits, isOctalDigit e = false →
          ('8' :: '9' :: fractionMarks).contains e = true := forall_mem_of_all (by decide)
      exact .inr (hend d (mem_digits (hds d List.mem_cons_self)) ((Bool.not_eq_true _).mp hoctal))

/-- A text that begins with a mark of a fraction and is not the rest of one. -/
structure Stray (rest : List Char) : Prop where
  mark : beginsWithMark rest = true
  noFraction : ∀ whole, fraction? whole rest = none

theorem Stray.exists_mark {rest : List Char} (h : Stray rest) :
    ∃ mark tail, rest = mark :: tail ∧ mark ∈ fractionMarks := by
  obtain ⟨mark, hhead, hmark⟩ := (Option.any_eq_true _ _).mp h.mark
  obtain ⟨tail, rfl⟩ := List.head?_eq_some_iff.mp hhead
  exact ⟨mark, tail, rfl, by simpa using hmark⟩

/-- Digits end at a stray mark. -/
theorem Stray.takeWhile_isDigit {rest : List Char} (h : Stray rest) :
    rest.takeWhile Char.isDigit = [] := by
  obtain ⟨mark, tail, rfl, hmark⟩ := h.exists_mark
  have hdigit : ∀ d ∈ fractionMarks, d.isDigit = false := forall_mem_of_all (by decide)
  rw [List.takeWhile_cons, hdigit mark hmark]
  rfl

/-- What digits and a stray mark begin with. -/
theorem Stray.head_mem {ds rest : List Char} {c : Char} (h : Stray rest)
    (hds : ∀ d ∈ ds, d.isDigit = true) (hc : (ds ++ rest).head? = some c) :
    c ∈ digits ++ fractionMarks := by
  cases ds with
  | nil =>
    obtain ⟨mark, tail, rfl, hmark⟩ := h.exists_mark
    cases hc
    exact List.mem_append_right _ hmark
  | cons d ds =>
    cases hc
    exact List.mem_append_left _ (mem_digits (hds c List.mem_cons_self))

/-- The octal digits among digits before a stray mark end at an `8`, at a `9`
or at the mark. -/
theorem Stray.octal_end {ds rest : List Char} (h : Stray rest) (hds : ∀ d ∈ ds, d.isDigit = true) :
    ((ds ++ rest).drop ((ds ++ rest).takeWhile isOctalDigit).length).head?.any
      ('8' :: '9' :: fractionMarks).contains = true := by
  rcases octal_or_end hds rest with hall | hend
  · obtain ⟨mark, tail, rfl, hmark⟩ := h.exists_mark
    have hoctal : ∀ d ∈ fractionMarks, isOctalDigit d = false := forall_mem_of_all (by decide)
    have hstop : (ds ++ mark :: tail).takeWhile isOctalDigit = ds :=
      takeWhile_append_of_stop hall fun c hc => Option.some.inj hc ▸ hoctal mark hmark
    rw [hstop, List.drop_left]
    simp [hmark]
  · exact hend

/-- Digits before a stray mark are no decimal number. -/
theorem Stray.decimal?_eq_none {ds rest : List Char} (h : Stray rest)
    (hds : ∀ d ∈ ds, d.isDigit = true) : decimal? (ds ++ rest) = none := by
  have hwhole : (ds ++ rest).takeWhile Char.isDigit = ds := by
    rw [List.takeWhile_append_of_pos hds, h.takeWhile_isDigit, List.append_nil]
  unfold decimal?
  simp only [hwhole, List.drop_left]
  rw [if_neg (fun hne => hne.2 h.mark), h.noFraction]
  rfl

/-- A digit before further digits and a stray mark begins nothing. -/
theorem Stray.codeMove_eq {d : Char} {ds rest : List Char} (h : Stray rest)
    (hds : ∀ e ∈ d :: ds, e.isDigit = true) (nameExpected : Bool) :
    codeMove nameExpected d (ds ++ rest) = .token .error d [] (.code nameExpected) := by
  have hd : d ∈ digits := mem_digits (hds d List.mem_cons_self)
  have hds' : ∀ e ∈ ds, e.isDigit = true := fun e he => hds e (List.mem_cons_of_mem _ he)
  have hclass : ∀ e ∈ digits, e ∉ operatorChars ∧ e ∉ numericOperatorChars ∧ isSign e = false ∧
      e ≠ '\\' := forall_mem_of_all (by decide)
  obtain ⟨hop, hnumeric, hsign, hback⟩ := hclass d hd
  have hop : isOperator d (ds ++ rest) = false := by simp [isOperator, hop, hnumeric]
  have hhex : hexTail? d (ds ++ rest) = none := by
    unfold hexTail?
    split
    · next x xs heq =>
      have hx : ∀ e ∈ digits ++ fractionMarks, ¬ (e = 'x' ∨ e = 'X') := forall_mem_of_all (by decide)
      exact if_neg fun hc => hx x (h.head_mem hds' (by rw [heq]; rfl)) hc.2
    · rfl
  have hoctal : octalTail? d (ds ++ rest) = none := by
    unfold octalTail?
    split
    · exact if_pos (.inr (h.octal_end hds'))
    · rfl
  have hdecimal : decimalTail? d (ds ++ rest) = none := by
    unfold decimalTail?
    rw [hsign, if_neg Bool.false_ne_true, ← List.cons_append, h.decimal?_eq_none hds]
    rfl
  rw [codeMove_of_numeric (List.mem_append_left _ hd), hop, if_neg Bool.false_ne_true]
  unfold numberMove
  rw [hhex, hoctal, hdecimal]
  exact if_neg fun hc => hback hc.1

theorem textOf_map_error (ds : List Char) :
    textOf (ds.map fun d => .token ⟨.error, [d]⟩) = ds := by
  induction ds with
  | nil => rfl
  | cons d ds ih => rw [List.map_cons, textOf_token, ih]; rfl

/-- Digits before a stray mark are written one by one. -/
theorem Stray.eventsFrom_eq {ds rest : List Char} (h : Stray rest)
    (hds : ∀ d ∈ ds, d.isDigit = true) (nameExpected : Bool) :
    lexer.eventsFrom (.code nameExpected) (ds ++ rest) =
      ds.map (fun d => .token ⟨.error, [d]⟩) ++ lexer.eventsFrom (.code nameExpected) rest := by
  induction ds with
  | nil => rfl
  | cons d ds ih =>
    have hstep : lexer.step (.code nameExpected) d (ds ++ rest) =
        some (.token .error d [] (.code nameExpected)) :=
      congrArg some (h.codeMove_eq hds nameExpected)
    rw [List.cons_append, lexer.eventsFrom_cons hstep]
    show .token ⟨.error, [d]⟩ :: lexer.eventsFrom (.code nameExpected) (ds ++ rest) = _
    rw [ih fun e he => hds e (List.mem_cons_of_mem _ he)]
    rfl

/-- A digit, or a sign before digits, that begins no number stands before a
stray mark, with digits between them. -/
theorem stray_of_decimalTail?_eq_none {c : Char} {cs : List Char} (h : decimalTail? c cs = none)
    (hc : c.isDigit = true ∨ isSign c = true ∧ cs.takeWhile Char.isDigit ≠ []) :
    Stray (cs.drop (cs.takeWhile Char.isDigit).length) := by
  unfold decimalTail? at h
  split at h
  · next hsign =>
    have hne : cs.takeWhile Char.isDigit ≠ [] := by
      refine (hc.resolve_left fun hdigit => ?_).2
      cases hsign.symm.trans (not_isSign_of_isDigit hdigit)
    unfold decimal? at h
    simp only [] at h
    split at h
    · cases h
    · next hwhole =>
      refine ⟨?_, fraction?_eq_none_of_mark hne (Option.map_eq_none_iff.mp h)⟩
      exact Decidable.byContradiction fun hmark => hwhole ⟨hne, hmark⟩
  · next hsign =>
    have hdigit := hc.resolve_right fun hc => hsign hc.1
    have hwhole : (c :: cs).takeWhile Char.isDigit = c :: cs.takeWhile Char.isDigit := by
      rw [List.takeWhile_cons, if_pos hdigit]
    have h := Option.map_eq_none_iff.mp h
    unfold decimal? at h
    simp only [hwhole, List.length_cons, List.drop_succ_cons] at h
    split at h
    · cases h
    · next hmark =>
      refine ⟨?_, fraction?_eq_none_of_mark (List.cons_ne_nil _ _) (Option.map_eq_none_iff.mp h)⟩
      exact Decidable.byContradiction fun hm => hmark ⟨List.cons_ne_nil _ _, hm⟩

/-- A digit or sign that begins nothing begins no decimal number. -/
theorem decimalTail?_eq_none_of_codeMove_eq {nameExpected : Bool} {c : Char} {cs : List Char}
    (h : codeMove nameExpected c cs = .token .error c [] (.code nameExpected))
    (hc : c.isDigit = true ∨ isSign c = true) : decimalTail? c cs = none := by
  rw [codeMove_of_numeric (mem_numeric hc)] at h
  split at h
  · cases h
  · unfold numberMove at h
    split at h
    · cases h
    split at h
    · cases h
    split at h
    · next hdecimal =>
      obtain ⟨-, rfl | rfl⟩ := decimalTail?_isPrefix hdecimal
      · cases h
      · cases h
    · next hdecimal => exact hdecimal

/-! ## Cuts -/

/-- A token behind which a query can be cut: it is neither what stands before
the quote of a string, nor a digit or sign that nothing begins with. -/
def Settled (l : Lexeme) : Prop :=
  l.kind ≠ .modifier ∧
    ¬ (l.kind = .error ∧ ∃ c, l.text = [c] ∧ (c.isDigit = true ∨ c = '+' ∨ c = '-'))

theorem not_settled_error {c : Char} (hc : c.isDigit = true ∨ isSign c = true) :
    ¬ Settled ⟨.error, [c]⟩ := by
  rintro ⟨-, hsettled⟩
  refine hsettled ⟨rfl, c, rfl, hc.imp_right fun hsign => ?_⟩
  simpa [isSign, or_comm] using hsign

/-- A cut behind a settled token is behind the digits that follow a digit or
sign that begins nothing. -/
theorem digits_length_lt {nameExpected : Bool} {c : Char} {cs : List Char}
    {before after : List (Piece Lexeme)} {l : Lexeme} {n : Nat}
    (h : codeMove nameExpected c cs = .token .error c [] (.code nameExpected))
    (hc : c.isDigit = true ∨ isSign c = true)
    (he : lexer.eventsFrom (.code nameExpected) cs = before ++ .token l :: after) (hl : Settled l)
    (htext : textOf (before ++ [.token l]) = cs.take n) :
    (cs.takeWhile Char.isDigit).length < n := by
  have hpos := List.length_pos_iff.mpr (lossless.text_ne_nil he)
  have hlen := congrArg List.length htext
  rw [textOf_append, List.length_append, List.length_take, textOf_token, textOf_nil,
    List.append_nil] at hlen
  by_cases hne : cs.takeWhile Char.isDigit = []
  · rw [hne, List.length_nil]
    omega
  · have hstray := stray_of_decimalTail?_eq_none (decimalTail?_eq_none_of_codeMove_eq h hc)
      (hc.imp_right fun hsign => ⟨hsign, hne⟩)
    have hdigits : ∀ d ∈ cs.takeWhile Char.isDigit, d.isDigit = true :=
      List.all_eq_true.mp List.all_takeWhile
    have hevents := hstray.eventsFrom_eq hdigits nameExpected
    rw [List.prefix_iff_eq_append.mp (List.takeWhile_prefix _), he] at hevents
    rcases append_eq_split hevents.symm with ⟨between, hbefore, -⟩ | ⟨rest, hmap⟩
    · -- the token comes after the digits
      have hmap : textOf ((cs.takeWhile Char.isDigit).map fun d => .token ⟨.error, [d]⟩) =
          cs.takeWhile Char.isDigit := textOf_map_error _
      rw [hbefore, textOf_append, hmap, List.length_append] at hlen
      omega
    · -- the token is one of the digits
      have hmem : .token l ∈ before ++ .token l :: rest :=
        List.mem_append_right _ List.mem_cons_self
      rw [← hmap] at hmem
      obtain ⟨d, hd, heq⟩ := List.mem_map.mp hmem
      cases heq
      exact absurd hl (not_settled_error (.inl (hdigits d hd)))

/-- A move outside strings writes nothing behind its last token, which is the
only settled one, -/
theorem CodeRule.after_eq {nameExpected : Bool} {c : Char} {cs : List Char} {move : Move State}
    {before after : List (Piece Lexeme)} {l : Lexeme} (h : CodeRule nameExpected c cs move)
    (hw : move.writes = before ++ .token l :: after) (hl : Settled l) : after = [] := by
  cases h with
  | opening =>
    cases before with
    | nil => cases hw
    | cons p before =>
      have hw := (List.cons.inj hw).2
      split at hw
      · exact (singleton_eq_split hw).2.2
      · cases before with
        | nil =>
          obtain ⟨heq, -⟩ := List.cons.inj hw
          cases heq
          exact absurd rfl hl.1
        | cons p before => exact (singleton_eq_split (List.cons.inj hw).2).2.2
  | _ => exact (singleton_eq_split hw).2.2

/-- and holds back nothing. -/
theorem CodeRule.flush_next {nameExpected : Bool} {c : Char} {cs : List Char} {move : Move State}
    (h : CodeRule nameExpected c cs move) : lexer.flush move.next = [] := by
  cases h <;> rfl

/-- Outside strings, a query can be cut behind each settled token of a move. -/
theorem cutsAfter_codeMove {nameExpected : Bool} {c : Char} {cs : List Char}
    {before after : List (Piece Lexeme)} {l : Lexeme}
    (hw : (codeMove nameExpected c cs).writes = before ++ .token l :: after) (hl : Settled l) :
    lexer.CutsAfter held (.code nameExpected) (c :: cs) before l := by
  have hrule := codeMove_rule nameExpected c cs
  have hafter := hrule.after_eq hw hl
  have hbad (h : codeMove nameExpected c cs = .token .error c [] (.code nameExpected)) :
      ¬ (c.isDigit = true ∨ isSign c = true) := by
    intro hc
    rw [h] at hw
    cases (singleton_eq_split hw).2.1
    exact not_settled_error hc hl
  by_cases hend : c ∈ numericOperatorChars ∧ isOperator c cs = true
  · -- at the end of the text an operator has no letter behind it
    obtain ⟨hnumeric, hop⟩ := hend
    have hmem := List.mem_append_right digits hnumeric
    have hop' : isOperator c [] = true := by simp [isOperator, hnumeric]
    obtain ⟨flag, hmove⟩ : ∃ flag, codeMove nameExpected c [] = .token .operator c [] (.code flag) :=
      ⟨_, (codeMove_of_numeric hmem nameExpected []).trans (if_pos hop')⟩
    have hstep : lexer.step (.code nameExpected) c
        (cs.take (Move.token .operator c [] (State.code flag)).further) =
        some (.token .operator c [] (.code flag)) := congrArg some hmove
    rw [codeMove_of_numeric hmem nameExpected cs, if_pos hop] at hw
    exact lossless.cutsAfter_move hstep rfl hw (.inl hafter)
  · refine lossless.cutsAfter_move (congrArg some (codeMove_take rfl (Nat.le_refl _) ?_ ?_))
      hrule.flush_next hw (.inl hafter)
    · intro hnumeric
      have hop : isOperator c cs = false := by simpa [hnumeric] using hend
      have hcode := codeMove_of_numeric (List.mem_append_right digits hnumeric) nameExpected cs
      rw [hop, if_neg Bool.false_ne_true] at hcode
      rcases numberMove_of_numeric hnumeric hop nameExpected with ⟨hsign, herror⟩ | hpos
      · exact absurd (.inr hsign) (hbad (hcode.trans herror))
      · rw [hcode]
        exact hpos
    · exact fun h hc => absurd hc (hbad h)

theorem release_eq_split {held : List Char} {before after : List (Piece Lexeme)} {l : Lexeme}
    (h : release held = before ++ .token l :: after) : before = [] ∧ after = [] := by
  unfold release at h
  split at h
  · simp at h
  · exact ⟨(singleton_eq_split h).1, (singleton_eq_split h).2.2⟩

/-- Within a string, a query can be cut behind what was held back, and behind
the token that is written with it. -/
theorem cutsAfter_release {nameExpected : Bool} {quote c : Char} {held' cs : List Char}
    {move : Move State} {before after tail : List (Piece Lexeme)} {l l' : Lexeme}
    (h : stringMove? nameExpected quote held' c cs = some move)
    (hwrites : move.writes = release held' ++ .token l' :: tail)
    (htail : tail = [] ∨ tail = [.endGroup]) (hflush : lexer.flush move.next = [])
    (hw : move.writes = before ++ .token l :: after) :
    lexer.CutsAfter held (.string nameExpected quote held') (c :: cs) before l := by
  rcases append_eq_split (hwrites.symm.trans hw) with ⟨between, -, hrest⟩ | ⟨rest, hrelease⟩
  · refine lossless.cutsAfter_move (stringMove?_take h (Nat.le_refl _)) hflush hw ?_
    cases between with
    | nil =>
      obtain ⟨-, rfl⟩ := List.cons.inj hrest
      exact htail
    | cons p between =>
      have hrest := (List.cons.inj hrest).2
      rcases htail with rfl | rfl
      · simp at hrest
      · cases (singleton_eq_split hrest).2.1
  · obtain ⟨rfl, rfl⟩ := release_eq_split hrelease
    exact lossless.cutsAfter_held hrelease

/-- Within a string, a query can be cut behind each token of a move. -/
theorem cutsAfter_stringMove? {nameExpected : Bool} {quote c : Char} {held' cs : List Char}
    {move : Move State} {before after : List (Piece Lexeme)} {l : Lexeme}
    (h : stringMove? nameExpected quote held' c cs = some move)
    (hw : move.writes = before ++ .token l :: after) :
    lexer.CutsAfter held (.string nameExpected quote held') (c :: cs) before l := by
  cases stringRule_of_step h with
  | plain => simp at hw
  | doubled => simp at hw
  | closing => exact cutsAfter_release h rfl (.inr rfl) rfl hw
  | foreign => simp at hw
  | escape => exact cutsAfter_release h rfl (.inl rfl) rfl hw
  | broken => exact cutsAfter_release h rfl (.inr rfl) rfl hw

/-- A query can be cut behind every settled token. -/
theorem cuttable : lexer.Cuttable held Settled where
  within {state} := by
    intro c cs move before l after hs hw hl
    cases state with
    | code nameExpected =>
      obtain rfl := Option.some.inj hs
      exact cutsAfter_codeMove hw hl
    | string nameExpected quote held' => exact cutsAfter_stringMove? hs hw
  beyond {state} := by
    intro c cs move before l after n hs he hl htext
    cases state with
    | code nameExpected =>
      obtain rfl := Option.some.inj hs
      have hheld : held (codeMove nameExpected c cs).next = [] := by
        rw [← lossless.flush_text, (codeMove_rule nameExpected c cs).flush_next]
        rfl
      rw [hheld, List.nil_append] at htext
      have hpos : 0 < n := by
        rcases Nat.eq_zero_or_pos n with rfl | hpos
        · have hnil := (List.append_eq_nil_iff.mp ((textOf_append _ _).symm.trans htext)).2
          rw [textOf_token, textOf_nil, List.append_nil] at hnil
          exact absurd hnil (lossless.text_ne_nil he)
        · exact hpos
      refine congrArg some (codeMove_take rfl (Nat.le_add_right _ _) (fun _ => by omega) ?_)
      intro herror hc
      rw [herror] at he htext ⊢
      show _ < 0 + n
      rw [Nat.zero_add]
      exact digits_length_lt herror hc he hl htext
    | string nameExpected quote held' => exact stringMove?_take hs (Nat.le_add_right _ _)
  flush {state} := by
    intro before l after h
    cases state with
    | code nameExpected => simp [lexer] at h
    | string nameExpected quote held' => exact release_eq_split h

end Highlight1C.QueryLexer
