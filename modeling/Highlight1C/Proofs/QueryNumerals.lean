import Highlight1C.Proofs.QueryErrors

/-!
# Numbers in queries

What a query writes where digits stand, perhaps behind a sign, or a point in
front of a digit (`Head`), depends on what follows the digits. `Numeral` lists
the cases: a hexadecimal number, a fraction with a closing `f`, with digits
behind a point or with an exponent, an octal and a whole number are one token
each, and of a malformed number each character is an error. There is always
such a case (`Head.exists_numeral`), and it is what is written
(`Numeral.eventsFrom_eq`), whatever comes before.
-/

namespace Highlight1C

open Text

namespace QueryLexer

/-! ## The forms of numbers -/

/-- Perhaps a sign. -/
def MaybeSign (text : List Char) : Prop :=
  text = [] ∨ ∃ c, text = [c] ∧ isSign c = true

/-- An exponent in front of a text: its letter, perhaps a sign, and all the
digits behind it. -/
def IsExponent (text rest : List Char) : Prop :=
  ∃ e sign part, text = e :: (sign ++ part) ∧ (e = 'e' ∨ e = 'E') ∧ MaybeSign sign ∧
    Run Char.isDigit part ∧ Stops Char.isDigit rest

/-- What follows the digits behind a point: an exponent, if the text begins with
one, and then the rest. -/
inductive Scaled : List Char → List Char → List Char → Prop where
  | exponent {exponent left : List Char} (h : IsExponent exponent left) :
    Scaled (exponent ++ left) exponent left
  | plain {text : List Char}
    (h : ∀ exponent left, text = exponent ++ left → ¬ IsExponent exponent left) :
    Scaled text [] text

/-- A text goes on behind a zero as a hexadecimal number. -/
def BeginsHex (rest : List Char) : Prop :=
  ∃ x d more, rest = x :: d :: more ∧ (x = 'x' ∨ x = 'X') ∧ isHexDigit d = true

/-- The digits of an octal number: a zero and further octal digits. -/
structure IsOctal (digits : List Char) : Prop where
  zero : digits.head? = some '0'
  more : 2 ≤ digits.length
  octal : ∀ d ∈ digits, isOctalDigit d = true

/-- Where a number begins: digits in front of a text, perhaps behind a sign, or
no digits, in front of a point and a digit. -/
inductive Head : List Char → List Char → List Char → Prop where
  | digits {sign digits rest : List Char} (hsign : MaybeSign sign) (hrun : Run Char.isDigit digits)
    (hstops : Stops Char.isDigit rest) : Head sign digits rest
  | point {d : Char} {more : List Char} (hd : d.isDigit = true) : Head [] [] ('.' :: d :: more)

/-- What is written for digits behind a sign and in front of a text, and what is
left of the text then. -/
inductive Numeral (sign digits : List Char) : List Char → List Lexeme → List Char → Prop where
  /-- All the hexadecimal digits behind `0x`. -/
  | hex {x : Char} {more left : List Char} (hsign : sign = []) (hdigits : digits = ['0'])
    (hx : x = 'x' ∨ x = 'X') (hrun : Run isHexDigit more) (hstops : Stops isHexDigit left) :
    Numeral sign digits (x :: (more ++ left)) [⟨.hex, '0' :: x :: more⟩] left
  /-- A closing `f` makes digits a fraction. -/
  | closed {f : Char} {left : List Char} (hdigits : digits ≠ []) (hf : f = 'f' ∨ f = 'F') :
    Numeral sign digits (f :: left) [⟨.float, sign ++ digits ++ [f]⟩] left
  /-- So do a point and digits, perhaps with an exponent. -/
  | point {part after exponent left : List Char} (hrun : Run Char.isDigit part)
    (hstops : Stops Char.isDigit after) (hscaled : Scaled after exponent left) :
    Numeral sign digits ('.' :: (part ++ after))
      [⟨.float, sign ++ digits ++ '.' :: (part ++ exponent)⟩] left
  /-- So does an exponent. -/
  | exponent {exponent left : List Char} (hdigits : digits ≠ []) (h : IsExponent exponent left) :
    Numeral sign digits (exponent ++ left) [⟨.float, sign ++ digits ++ exponent⟩] left
  /-- A mark of a fraction that none comes of makes every character an error. -/
  | malformed {rest : List Char} (hdigits : digits ≠ []) (h : Malformed rest) :
    Numeral sign digits rest ((sign ++ digits).map fun c => ⟨.error, [c]⟩) rest
  /-- Octal digits without a mark behind them. -/
  | octal {rest : List Char} (hsign : sign = []) (hoctal : IsOctal digits)
    (hmark : beginsWithMark rest = false) : Numeral sign digits rest [⟨.octal, digits⟩] rest
  /-- All other digits without a mark behind them are a whole number. -/
  | whole {rest : List Char} (hdigits : digits ≠ []) (hmark : beginsWithMark rest = false)
    (hhex : ¬ (sign = [] ∧ digits = ['0'] ∧ BeginsHex rest))
    (hoctal : ¬ (sign = [] ∧ IsOctal digits)) :
    Numeral sign digits rest [⟨.integer, sign ++ digits⟩] rest

/-! ## Exponents -/

theorem take_sign {sign part : List Char} (hsign : MaybeSign sign) (hrun : Run Char.isDigit part)
    (rest : List Char) : ((sign ++ (part ++ rest)).take 1).filter isSign = sign := by
  rcases hsign with rfl | ⟨c, rfl, hc⟩
  · obtain ⟨d, ds, rfl⟩ := List.exists_cons_of_ne_nil hrun.1
    have hd := not_isSign_of_isDigit (hrun.2 d List.mem_cons_self)
    simp [hd]
  · simp [hc]

theorem exponent?_of_isExponent {text rest : List Char} (h : IsExponent text rest) :
    exponent? (text ++ rest) = some text := by
  obtain ⟨e, sign, part, rfl, he, hsign, hrun, hstops⟩ := h
  rw [List.cons_append, List.append_assoc]
  simp only [exponent?, take_sign hsign hrun, List.drop_left,
    takeWhile_append_of_stop hrun.2 hstops]
  rw [if_pos ⟨he, hrun.1⟩]
  rfl

theorem maybeSign_take (text : List Char) : MaybeSign ((text.take 1).filter isSign) := by
  cases text with
  | nil => exact .inl rfl
  | cons c cs =>
    by_cases hc : isSign c = true
    · exact .inr ⟨c, by simp [hc], hc⟩
    · exact .inl (by simp [hc])

theorem isExponent_of_exponent? {text exponent : List Char} (h : exponent? text = some exponent) :
    ∃ left, text = exponent ++ left ∧ IsExponent exponent left := by
  cases text with
  | nil => cases h
  | cons e more =>
    simp only [exponent?] at h
    split at h
    · next he =>
      cases h
      have hmore := List.prefix_iff_eq_append.mp (sign_isPrefix more)
      have hpart := List.prefix_iff_eq_append.mp (List.takeWhile_prefix
        (l := more.drop ((more.take 1).filter isSign).length) Char.isDigit)
      have hstops := stops_drop_takeWhile Char.isDigit
        (more.drop ((more.take 1).filter isSign).length)
      refine ⟨_, ?_, e, _, _, rfl, he.1, maybeSign_take more, run_takeWhile he.2, hstops⟩
      rw [List.cons_append, List.cons_append, List.append_assoc, hpart, hmore]
    · cases h

/-- A text has something behind the digits after a point, if only the rest. -/
theorem Scaled.total (text : List Char) : ∃ exponent left, Scaled text exponent left := by
  cases h : exponent? text with
  | some exponent =>
    obtain ⟨left, rfl, hexponent⟩ := isExponent_of_exponent? h
    exact ⟨exponent, left, .exponent hexponent⟩
  | none =>
    refine ⟨[], text, .plain fun exponent left heq hexponent => ?_⟩
    rw [heq, exponent?_of_isExponent hexponent] at h
    cases h

theorem Scaled.eq_append {text exponent left : List Char} (h : Scaled text exponent left) :
    text = exponent ++ left ∧ (exponent? text).getD [] = exponent := by
  cases h with
  | exponent h =>
    rw [exponent?_of_isExponent h]
    exact ⟨rfl, rfl⟩
  | plain h =>
    cases hfound : exponent? text with
    | none => exact ⟨rfl, rfl⟩
    | some exponent =>
      obtain ⟨left, heq, hexponent⟩ := isExponent_of_exponent? hfound
      exact absurd hexponent (h exponent left heq)

/-! ## Recognisers at the head of a number -/

/-- A mark of a fraction is no letter of a hexadecimal number. -/
theorem not_beginsHex_of_mark {rest : List Char} (h : beginsWithMark rest = true) :
    ¬ BeginsHex rest := by
  rintro ⟨x, d, more, rfl, hx, -⟩
  have hclass : ∀ c ∈ ['x', 'X'], fractionMarks.contains c = false := forall_mem_of_all (by decide)
  cases h.symm.trans (hclass x (by simpa using hx))

/-- Digits are no hexadecimal number, unless they are a zero before the rest of
one. -/
theorem hexTail?_digits {d : Char} {ds : List Char} (hds : ∀ e ∈ ds, e.isDigit = true)
    (rest : List Char) (h : ¬ (d :: ds = ['0'] ∧ BeginsHex rest)) : hexTail? d (ds ++ rest) = none := by
  cases ds with
  | cons e ds =>
    have hclass : ∀ e ∈ digits, ¬ (e = 'x' ∨ e = 'X') := forall_mem_of_all (by decide)
    exact if_neg fun hx => hclass e (mem_digits (hds e List.mem_cons_self)) hx.2
  | nil =>
    cases rest with
    | nil => rfl
    | cons x more =>
      simp only [List.nil_append, hexTail?]
      split
      · next hx =>
        refine if_pos (Decidable.byContradiction fun hne => h ⟨by rw [hx.1], ?_⟩)
        obtain ⟨e, hhead, he⟩ := (Option.any_eq_true _ _).mp
          ((Bool.not_eq_false _).mp fun hnone => hne (takeWhile_eq_nil_iff.mpr hnone))
        obtain ⟨more, rfl⟩ := List.head?_eq_some_iff.mp hhead
        exact ⟨x, e, more, rfl, hx.2, he⟩
      · rfl

/-- Octal digits before something else than a digit are taken, and nothing
else. -/
theorem takeWhile_octal {ds rest : List Char} (hds : ∀ d ∈ ds, isOctalDigit d = true)
    (hstops : Stops Char.isDigit rest) : (ds ++ rest).takeWhile isOctalDigit = ds :=
  takeWhile_append_of_stop hds <| hstops.mono fun _ hc =>
    (Bool.not_eq_true _).mp fun hoctal => by cases hc.symm.trans (isDigit_of_isOctalDigit hoctal)

/-- Behind digits, only a mark of a fraction keeps octal digits from being a
number. -/
theorem any_end_eq {rest : List Char} (hstops : Stops Char.isDigit rest) :
    rest.head?.any ('8' :: '9' :: fractionMarks).contains = beginsWithMark rest := by
  cases rest with
  | nil => rfl
  | cons c cs =>
    have hc : ∀ d ∈ ['8', '9'], c ≠ d := by
      rintro d hd rfl
      have hclass : ∀ d ∈ ['8', '9'], d.isDigit = true := forall_mem_of_all (by decide)
      cases (hstops c rfl).symm.trans (hclass c hd)
    simp [beginsWithMark, hc]

theorem octalTail?_digits {d : Char} {ds rest : List Char} (hds : ∀ e ∈ ds, e.isDigit = true)
    (hstops : Stops Char.isDigit rest)
    (h : ¬ (IsOctal (d :: ds) ∧ beginsWithMark rest = false)) : octalTail? d (ds ++ rest) = none := by
  unfold octalTail?
  split
  · next hd =>
    simp only []
    rcases octal_or_end hds rest with hall | hend
    · rw [takeWhile_octal hall hstops, List.drop_left, any_end_eq hstops]
      refine if_pos (Decidable.byContradiction fun hnot => ?_)
      obtain ⟨hne, hmark⟩ := not_or.mp hnot
      have hoctal : IsOctal (d :: ds) :=
        ⟨by rw [hd]; rfl, Nat.succ_le_succ (List.length_pos_iff.mpr hne),
          List.forall_mem_cons.mpr ⟨by rw [hd]; rfl, hall⟩⟩
      exact h ⟨hoctal, (Bool.not_eq_true _).mp hmark⟩
    · exact if_pos (.inr hend)
  · rfl

theorem octalTail?_of_isOctal {d : Char} {ds rest : List Char} (hoctal : IsOctal (d :: ds))
    (hstops : Stops Char.isDigit rest) (hmark : beginsWithMark rest = false) :
    octalTail? d (ds ++ rest) = some ds := by
  have hd : d = '0' := Option.some.inj hoctal.zero
  have hne : ds ≠ [] := List.length_pos_iff.mp (Nat.le_of_succ_le_succ hoctal.more)
  have hrun := takeWhile_octal (fun e he => hoctal.octal e (List.mem_cons_of_mem _ he)) hstops
  simp only [octalTail?, hrun, List.drop_left, any_end_eq hstops, hmark]
  rw [if_pos hd, if_neg (by simpa using hne)]

/-- A decimal number that begins with digits is made of them, unless a mark of
a fraction follows. -/
theorem decimal?_digits {ds rest : List Char} (hds : ∀ d ∈ ds, d.isDigit = true)
    (hstops : Stops Char.isDigit rest) :
    decimal? (ds ++ rest) =
      if ds ≠ [] ∧ beginsWithMark rest = false then some (.integer, ds)
      else (fraction? ds rest).map (.float, ·) := by
  have hmark : beginsWithMark rest = false ↔ ¬ rest.head?.any fractionMarks.contains = true :=
    (Bool.not_eq_true _).to_iff.symm
  unfold decimal?
  simp only [takeWhile_append_of_stop hds hstops, List.drop_left, hmark]

/-! ## What is written -/

/-- A move that writes one token, in front of what is left. -/
theorem eventsFrom_of_codeMove {nameExpected : Bool} {c : Char} {kind : TokenKind}
    (more : List Char) {left : List Char}
    (h : codeMove nameExpected c (more ++ left) = .token kind c more (.code nameExpected)) :
    lexer.eventsFrom (.code nameExpected) (c :: (more ++ left)) =
      .token ⟨kind, c :: more⟩ :: lexer.eventsFrom (.code nameExpected) left := by
  have hstep : lexer.step (.code nameExpected) c (more ++ left) =
      some (.token kind c more (.code nameExpected)) := congrArg some h
  rw [lexer.eventsFrom_cons hstep]
  show _ :: lexer.eventsFrom (.code nameExpected) ((more ++ left).drop more.length) = _
  rw [List.drop_left]

/-- At a digit, the move is that on a number. -/
theorem codeMove_digit {d : Char} (hd : d.isDigit = true) (nameExpected : Bool) (cs : List Char) :
    codeMove nameExpected d cs = numberMove nameExpected d cs := by
  have hclass : ∀ e ∈ digits, e ∉ operatorChars ∧ e ∉ numericOperatorChars :=
    forall_mem_of_all (by decide)
  obtain ⟨hop, hnumeric⟩ := hclass d (mem_digits hd)
  rw [codeMove_of_numeric (List.mem_append_left _ (mem_digits hd)), if_neg]
  simp [isOperator, hop, hnumeric]

/-- So it is at a sign or a point in front of a digit. -/
theorem codeMove_numeric {c d : Char} (hc : c ∈ numericOperatorChars) (hd : d.isDigit = true)
    (nameExpected : Bool) (ds : List Char) :
    codeMove nameExpected c (d :: ds) = numberMove nameExpected c (d :: ds) := by
  have hclass : ∀ e ∈ numericOperatorChars, e ∉ operatorChars := forall_mem_of_all (by decide)
  rw [codeMove_of_numeric (List.mem_append_right _ hc), if_neg]
  simp [isOperator, hclass c hc, hd]

/-- Where a number is neither hexadecimal nor octal, it is the decimal one. -/
theorem Head.eventsFrom_decimal {sign digits rest number left : List Char} {kind : TokenKind}
    (h : Head sign digits rest) (hdecimal : decimal? (digits ++ rest) = some (kind, number))
    (hleft : digits ++ rest = number ++ left)
    (hhex : ¬ (sign = [] ∧ digits = ['0'] ∧ BeginsHex rest))
    (hoctal : ¬ (sign = [] ∧ IsOctal digits ∧ beginsWithMark rest = false)) (nameExpected : Bool) :
    lexer.eventsFrom (.code nameExpected) (sign ++ digits ++ rest) =
      .token ⟨kind, sign ++ number⟩ :: lexer.eventsFrom (.code nameExpected) left := by
  have hne := decimal?_ne_nil hdecimal
  rw [List.append_assoc, hleft]
  cases h with
  | digits hsign hrun hstops =>
    obtain ⟨d, ds, rfl⟩ := List.exists_cons_of_ne_nil hrun.1
    have hd := hrun.2 d List.mem_cons_self
    have hds : ∀ e ∈ ds, e.isDigit = true := fun e he => hrun.2 e (List.mem_cons_of_mem _ he)
    rcases hsign with rfl | ⟨c, rfl, hc⟩
    · obtain ⟨e, more, rfl⟩ := List.exists_cons_of_ne_nil hne
      rw [List.cons_append, List.cons_append] at hleft
      obtain ⟨rfl, hmore⟩ := List.cons.inj hleft
      refine eventsFrom_of_codeMove _ ?_
      have hhex := hexTail?_digits hds rest fun h => hhex ⟨rfl, h⟩
      have hoctal := octalTail?_digits hds hstops fun h => hoctal ⟨rfl, h⟩
      have htail : decimalTail? d (ds ++ rest) = some (kind, more) := by
        rw [decimalTail?, not_isSign_of_isDigit hd, if_neg Bool.false_ne_true, ← List.cons_append,
          hdecimal]
        rfl
      rw [codeMove_digit hd, ← hmore, numberMove, hhex, hoctal, htail]
    · refine eventsFrom_of_codeMove number ?_
      have hmem := mem_numericOperatorChars hc
      have hzero : ∀ e ∈ numericOperatorChars, e ≠ '0' := forall_mem_of_all (by decide)
      rw [List.cons_append] at hdecimal hleft
      have hoctal : octalTail? c (d :: (ds ++ rest)) = none := if_neg (hzero c hmem)
      have htail : decimalTail? c (d :: (ds ++ rest)) = some (kind, number) := by
        rw [decimalTail?, if_pos hc, hdecimal]
      rw [← hleft, codeMove_numeric hmem hd, numberMove, hexTail?_eq_none_of_ne (hzero c hmem), hoctal,
        htail]
  | @point d more hd =>
    obtain ⟨c, after, rfl⟩ := List.exists_cons_of_ne_nil hne
    rw [List.nil_append, List.cons_append] at hleft
    obtain ⟨rfl, hafter⟩ := List.cons.inj hleft
    refine eventsFrom_of_codeMove _ ?_
    have hpoint : '.' ∈ numericOperatorChars := by decide
    have hoctal : octalTail? '.' (d :: more) = none := rfl
    have htail : decimalTail? '.' (d :: more) = some (kind, after) := by
      show (decimal? ('.' :: d :: more)).map _ = _
      rw [show decimal? ('.' :: d :: more) = _ from hdecimal]
      rfl
    rw [← hafter, codeMove_numeric hpoint hd, numberMove, hexTail?_eq_none_of_ne (by decide),
      hoctal, htail]

/-- Where a fraction goes on behind the digits, it is what is written. -/
theorem Head.eventsFrom_float {sign digits rest number left : List Char} (h : Head sign digits rest)
    (hmark : beginsWithMark rest = true) (hfraction : fraction? digits rest = some number)
    (hleft : digits ++ rest = number ++ left) (nameExpected : Bool) :
    lexer.eventsFrom (.code nameExpected) (sign ++ digits ++ rest) =
      .token ⟨.float, sign ++ number⟩ :: lexer.eventsFrom (.code nameExpected) left := by
  have hmark' : ¬ beginsWithMark rest = false := by simp [hmark]
  have hrun : (∀ d ∈ digits, d.isDigit = true) ∧ Stops Char.isDigit rest := by
    cases h with
    | digits _ hrun hstops => exact ⟨hrun.2, hstops⟩
    | point => exact ⟨nofun, by rintro c ⟨⟩; rfl⟩
  have hdecimal : decimal? (digits ++ rest) = some (.float, number) := by
    rw [decimal?_digits hrun.1 hrun.2, if_neg fun hwhole => hmark' hwhole.2, hfraction]
    rfl
  exact h.eventsFrom_decimal hdecimal hleft (fun hhex => not_beginsHex_of_mark hmark hhex.2.2)
    (fun hoctal => hmark' hoctal.2.2) nameExpected

/-- A numeral is what is written for its head, and then what is left is read
on from. -/
theorem Numeral.eventsFrom_eq {sign digits rest left : List Char} {lexemes : List Lexeme}
    (h : Numeral sign digits rest lexemes left) (hhead : Head sign digits rest)
    (nameExpected : Bool) :
    lexer.eventsFrom (.code nameExpected) (sign ++ digits ++ rest) =
      lexemes.map .token ++ lexer.eventsFrom (.code nameExpected) left := by
  cases h with
  | @hex x more left hsign hdigits hx hrun hstops =>
    subst hsign hdigits
    have hhex : hexTail? '0' (x :: more ++ left) = some (x :: more) := by
      simp only [List.cons_append, hexTail?, takeWhile_append_of_stop hrun.2 hstops]
      rw [if_pos ⟨trivial, hx⟩, if_neg hrun.1]
    refine eventsFrom_of_codeMove (x :: more) ?_
    rw [codeMove_digit rfl, numberMove, hhex]
  | @closed f left hdigits hf =>
    have hclass : ∀ c ∈ ['f', 'F'], fractionMarks.contains c = true ∧ c ≠ '.' :=
      forall_mem_of_all (by decide)
    obtain ⟨hmark, hpoint⟩ := hclass f (by simpa using hf)
    have hfraction : fraction? digits (f :: left) = some (digits ++ [f]) := by
      rw [fraction?_cons, if_neg hpoint, if_neg hdigits, if_pos hf]
    simpa using hhead.eventsFrom_float hmark hfraction (by simp) nameExpected
  | @point part after exponent left hrun hstops hscaled =>
    obtain ⟨rfl, hexponent⟩ := hscaled.eq_append
    have hfraction : fraction? digits ('.' :: (part ++ (exponent ++ left))) =
        some (digits ++ '.' :: (part ++ exponent)) := by
      rw [fraction?_cons, if_pos rfl, takeWhile_append_of_stop hrun.2 hstops, if_neg hrun.1,
        List.drop_left, hexponent]
      simp
    simpa using hhead.eventsFrom_float rfl hfraction (by simp) nameExpected
  | @exponent exponent left hdigits hexponent =>
    have hfound := exponent?_of_isExponent hexponent
    obtain ⟨e, esign, part, rfl, he, -⟩ := hexponent
    have hclass : ∀ c ∈ ['e', 'E'], fractionMarks.contains c = true ∧ c ≠ '.' ∧
        ¬ (c = 'f' ∨ c = 'F') := forall_mem_of_all (by decide)
    obtain ⟨hmark, hpoint, hclosing⟩ := hclass e (by simpa using he)
    have hfraction : fraction? digits (e :: (esign ++ part) ++ left) =
        some (digits ++ e :: (esign ++ part)) := by
      rw [List.cons_append] at hfound ⊢
      rw [fraction?_cons, if_neg hpoint, if_neg hdigits, if_neg hclosing, hfound]
      rfl
    simpa using hhead.eventsFrom_float hmark hfraction (by simp) nameExpected
  | malformed hdigits hmalformed =>
    have hstray := stray_iff_malformed.mpr hmalformed
    cases hhead with
    | point => exact absurd rfl hdigits
    | digits hsign hrun =>
      have hevents := hstray.eventsFrom_eq hrun.2 nameExpected
      rw [List.map_map]
      rcases hsign with rfl | ⟨c, rfl, hc⟩
      · exact hevents
      · have hmove := hstray.codeMove_sign hrun.2 hrun.1 hc nameExpected
        rw [List.append_assoc]
        exact (eventsFrom_of_codeMove [] hmove).trans (congrArg _ hevents)
  | octal hsign hoctal hmark =>
    subst hsign
    cases hhead with
    | digits _ hrun hstops =>
      obtain ⟨d, ds, rfl⟩ := List.exists_cons_of_ne_nil hrun.1
      have hd := hrun.2 d List.mem_cons_self
      have hds : ∀ e ∈ ds, e.isDigit = true := fun e he => hrun.2 e (List.mem_cons_of_mem _ he)
      have hhex : hexTail? d (ds ++ rest) = none := by
        refine hexTail?_digits hds rest fun h => ?_
        have hmore := hoctal.more
        rw [h.1] at hmore
        exact absurd hmore (by decide)
      refine eventsFrom_of_codeMove ds ?_
      rw [codeMove_digit hd, numberMove, hhex, octalTail?_of_isOctal hoctal hstops hmark]
    | point => cases hmark
  | whole hdigits hmark hhex hoctal =>
    cases hhead with
    | point => exact absurd rfl hdigits
    | digits hsign hrun hstops =>
      have hdecimal : decimal? (digits ++ rest) = some (.integer, digits) := by
        rw [decimal?_digits hrun.2 hstops, if_pos ⟨hdigits, hmark⟩]
      exact (Head.digits hsign hrun hstops).eventsFrom_decimal hdecimal rfl hhex
        (fun h => hoctal ⟨h.1, h.2.1⟩) nameExpected

/-- Behind a mark of a fraction there is a fraction, or the number is
malformed. -/
theorem exists_numeral_of_mark {sign digits rest : List Char} (hdigits : digits ≠ [])
    (hmark : beginsWithMark rest = true) :
    ∃ lexemes left, Numeral sign digits rest lexemes left := by
  obtain ⟨c, hhead, hc⟩ := (Option.any_eq_true _ _).mp hmark
  obtain ⟨more, rfl⟩ := List.head?_eq_some_iff.mp hhead
  have hkind : ∀ d ∈ fractionMarks, d = '.' ∨ (d = 'e' ∨ d = 'E') ∨ (d = 'f' ∨ d = 'F') :=
    forall_mem_of_all (by decide)
  rcases hkind c (List.contains_iff_mem.mp hc) with rfl | he | hf
  · by_cases hpart : more.takeWhile Char.isDigit = []
    · exact ⟨_, _, .malformed hdigits (.point (takeWhile_eq_nil_iff.mp hpart))⟩
    · obtain ⟨exponent, left, hscaled⟩ :=
        Scaled.total (more.drop (more.takeWhile Char.isDigit).length)
      have hnumeral : Numeral sign digits _ _ left :=
        .point (run_takeWhile hpart) (stops_drop_takeWhile _ more) hscaled
      rw [List.prefix_iff_eq_append.mp (List.takeWhile_prefix _)] at hnumeral
      exact ⟨_, _, hnumeral⟩
  · cases hfound : exponent? (c :: more) with
    | none => exact ⟨_, _, .malformed hdigits (.exponent he ((exponent?_eq_none_iff he more).mp hfound))⟩
    | some exponent =>
      obtain ⟨left, heq, hexponent⟩ := isExponent_of_exponent? hfound
      rw [heq]
      exact ⟨_, _, .exponent hdigits hexponent⟩
  · exact ⟨_, _, .closed hdigits hf⟩

theorem exists_hex {digits rest : List Char} (hdigits : digits = ['0']) (h : BeginsHex rest) :
    ∃ lexemes left, Numeral [] digits rest lexemes left := by
  obtain ⟨x, d, more, rfl, hx, hd⟩ := h
  have hnumeral : Numeral [] digits _ _ _ :=
    .hex rfl hdigits hx (run_cons_takeWhile hd more) (stops_drop_takeWhile isHexDigit more)
  rw [List.cons_append, List.prefix_iff_eq_append.mp (List.takeWhile_prefix _)] at hnumeral
  exact ⟨_, _, hnumeral⟩

/-- Every head of a number begins a numeral. -/
theorem Head.exists_numeral {sign digits rest : List Char} (h : Head sign digits rest) :
    ∃ lexemes left, Numeral sign digits rest lexemes left := by
  cases h with
  | digits hsign hrun hstops =>
    cases hmark : beginsWithMark rest with
    | true => exact exists_numeral_of_mark hrun.1 hmark
    | false =>
      by_cases hhex : sign = [] ∧ digits = ['0'] ∧ BeginsHex rest
      · obtain ⟨rfl, hdigits, hbegins⟩ := hhex
        exact exists_hex hdigits hbegins
      by_cases hoctal : sign = [] ∧ IsOctal digits
      · exact ⟨_, _, .octal hoctal.1 hoctal.2 hmark⟩
      · exact ⟨_, _, .whole hrun.1 hmark hhex hoctal⟩
  | @point d more hd =>
    obtain ⟨exponent, left, hscaled⟩ := Scaled.total (more.drop (more.takeWhile Char.isDigit).length)
    have hnumeral : Numeral [] [] _ _ left :=
      .point (run_cons_takeWhile hd more) (stops_drop_takeWhile Char.isDigit more) hscaled
    rw [List.cons_append, List.prefix_iff_eq_append.mp (List.takeWhile_prefix _)] at hnumeral
    exact ⟨_, _, hnumeral⟩

end QueryLexer

/-- The numbers of a query, in a source of at most 2³² − 2 characters. Wherever
the lexer comes, outside strings, to digits, perhaps behind a sign, or to a
point before a digit, there is a numeral, and it is what is written next. -/
theorem tokenize_numerals (source : List Char) (hsize : source.length ≤ sourceBound) :
    ∃ stream, tokenize .query source = .ok (.ok stream) ∧
      ∀ written nameExpected sign digits rest,
        QueryLexer.lexer.Reaches source written (.code nameExpected) (sign ++ digits ++ rest) →
        QueryLexer.Head sign digits rest →
        (∃ lexemes left, QueryLexer.Numeral sign digits rest lexemes left) ∧
        ∀ lexemes left, QueryLexer.Numeral sign digits rest lexemes left →
          ∃ after, stream.bare = written ++ lexemes.map .token ++ after ∧
            textOf written ++ sign ++ digits ++ rest = source ∧ textOf after = left := by
  refine ⟨_, tokenize_eq hsize, fun written nameExpected sign digits rest hr hhead =>
    ⟨hhead.exists_numeral, fun lexemes left hnumeral => ?_⟩⟩
  obtain ⟨hsource, hevents⟩ := QueryLexer.lossless.of_reaches hr
  refine ⟨QueryLexer.lexer.eventsFrom (.code nameExpected) left, ?_, ?_, ?_⟩
  · rw [Language.bare_stream]
    show QueryLexer.lexer.eventsFrom QueryLexer.lexer.start source = _
    rw [hevents, hnumeral.eventsFrom_eq hhead, List.append_assoc]
  · rw [hsource]
    simp [QueryLexer.held]
  · rw [QueryLexer.lossless.textOf_eventsFrom]
    rfl

/-- A sign, digits behind a point and an exponent are one fraction, up to the
semicolon. -/
theorem tokenize_numerals_scaled :
    ∃ stream after, tokenize .query ['+', '1', '.', '5', 'e', '-', '2', ';'] = .ok (.ok stream) ∧
      stream.bare = .token ⟨.float, ['+', '1', '.', '5', 'e', '-', '2']⟩ :: after ∧
      textOf after = [';'] := by
  obtain ⟨stream, hstream, hnumerals⟩ :=
    tokenize_numerals ['+', '1', '.', '5', 'e', '-', '2', ';'] (by decide)
  have hstops {p : Char → Bool} {c : Char} {cs : List Char} (h : p c = false) :
      Text.Stops p (c :: cs) := by
    rintro d ⟨⟩
    exact h
  have hdigit {c : Char} (h : c.isDigit = true) : Text.Run Char.isDigit [c] :=
    Text.run_cons_takeWhile h []
  have hexponent : QueryLexer.IsExponent ['e', '-', '2'] [';'] :=
    ⟨'e', ['-'], ['2'], rfl, .inl rfl, .inr ⟨'-', rfl, rfl⟩, hdigit rfl, hstops rfl⟩
  have hhead : QueryLexer.Head ['+'] ['1'] ['.', '5', 'e', '-', '2', ';'] :=
    .digits (.inr ⟨'+', rfl, rfl⟩) (hdigit rfl) (hstops rfl)
  have hnumeral : QueryLexer.Numeral ['+'] ['1'] _ _ [';'] :=
    .point (hdigit (c := '5') rfl) (hstops rfl) (.exponent hexponent)
  obtain ⟨after, hbare, -, hafter⟩ := (hnumerals [] false _ _ _ .start hhead).2 _ _ hnumeral
  exact ⟨stream, after, hstream, hbare, hafter⟩

end Highlight1C
