import Highlight1C.Proofs.QueryLexer

/-!
# Numbers of a query that is cut off

A recogniser of numbers finds the same number in a text that is cut off at
the end of the number or further on (`hexTail?_take` and so on). Where it
finds none, there may be one once the text is cut: digits before a point, say,
are a whole number when the point is gone. This needs a cut within the
digits; behind them there is still no number (`octalTail?_take_eq_none`,
`decimalTail?_take_eq_none`).
-/

namespace Highlight1C.QueryLexer

open Text

/-! ## Digits and signs -/

theorem not_isSign_of_isDigit {c : Char} (h : c.isDigit = true) : isSign c = false := by
  have hclass : ∀ d ∈ digits, isSign d = false := forall_mem_of_all (by decide)
  exact hclass c (mem_digits h)

theorem mem_numericOperatorChars {c : Char} (h : isSign c = true) : c ∈ numericOperatorChars := by
  simp only [isSign, Bool.or_eq_true, beq_iff_eq] at h
  rcases h with rfl | rfl
  · decide
  · decide

theorem mem_numeric {c : Char} (h : c.isDigit = true ∨ isSign c = true) :
    c ∈ digits ++ numericOperatorChars :=
  List.mem_append.mpr (h.imp mem_digits mem_numericOperatorChars)

/-! ## Hexadecimal and octal numbers -/

theorem hexTail?_take {c : Char} {cs more : List Char} {n : Nat} (h : hexTail? c cs = some more)
    (hn : more.length ≤ n) : hexTail? c (cs.take n) = some more := by
  cases cs with
  | nil => cases h
  | cons x ds =>
    simp only [hexTail?] at h
    split at h
    · next hx =>
      split at h
      · cases h
      · next hdigits =>
        cases h
        cases n with
        | zero => cases hn
        | succ n =>
          have hrun := takeWhile_take (Nat.le_of_succ_le_succ hn)
          simp only [List.take_succ_cons, hexTail?, hrun]
          rw [if_pos hx, if_neg hdigits]
    · cases h

theorem hexTail?_take_eq_none {c : Char} {cs : List Char} (n : Nat) (h : hexTail? c cs = none) :
    hexTail? c (cs.take n) = none := by
  cases cs with
  | nil => rwa [List.take_nil]
  | cons x ds =>
    cases n with
    | zero => rfl
    | succ n =>
      simp only [hexTail?] at h
      simp only [List.take_succ_cons, hexTail?]
      split at h
      · next hx =>
        split at h
        · next hdigits => rw [if_pos hx, if_pos (takeWhile_take_eq_nil n hdigits)]
        · cases h
      · next hx => rw [if_neg hx]

theorem octalTail?_take {c : Char} {cs more : List Char} {n : Nat}
    (h : octalTail? c cs = some more) (hn : more.length ≤ n) :
    octalTail? c (cs.take n) = some more := by
  unfold octalTail? at h ⊢
  split at h
  · next hc =>
    rw [if_pos hc]
    simp only [] at h ⊢
    split at h
    · cases h
    · next hend =>
      cases h
      have hrun := takeWhile_take hn
      rw [hrun, List.drop_take, if_neg]
      rintro (hnil | hmark)
      · exact hend (.inl hnil)
      · exact hend (.inr (any_head?_of_any_head?_take hmark))
  · cases h

/-- Octal digits that are no number are none when the text is cut off behind
them. -/
theorem octalTail?_take_eq_none {c : Char} {cs : List Char} {n : Nat} (h : octalTail? c cs = none)
    (hn : c = '0' → cs.takeWhile isOctalDigit ≠ [] → (cs.takeWhile isOctalDigit).length < n) :
    octalTail? c (cs.take n) = none := by
  unfold octalTail? at h ⊢
  split at h
  · next hc =>
    rw [if_pos hc]
    simp only [] at h ⊢
    split at h
    · next hend =>
      by_cases hnil : cs.takeWhile isOctalDigit = []
      · rw [if_pos (.inl (takeWhile_take_eq_nil n hnil))]
      · have hlt := hn hc hnil
        have hrun := takeWhile_take (Nat.le_of_lt hlt)
        rw [hrun, List.drop_take, head?_take_of_pos (by omega), if_pos hend]
    · cases h
  · next hc => rw [if_neg hc]

/-! ## Fractions -/

theorem exponent?_take {text exponent : List Char} {n : Nat} (h : exponent? text = some exponent)
    (hn : exponent.length ≤ n) : exponent? (text.take n) = some exponent := by
  cases text with
  | nil => cases h
  | cons e rest =>
    simp only [exponent?] at h
    split at h
    · next he =>
      cases h
      simp only [List.cons_append, List.length_cons, List.length_append] at hn
      have hpos := List.length_pos_iff.mpr he.2
      obtain ⟨n, rfl⟩ : ∃ m, n = m + 1 := ⟨n - 1, by omega⟩
      have hsign : (rest.take n).take 1 = rest.take 1 := by
        rw [List.take_take, Nat.min_eq_left (by omega)]
      simp only [List.take_succ_cons, exponent?, hsign, List.drop_take]
      rw [takeWhile_take (by omega), if_pos he]
    · cases h

theorem exponent?_take_eq_none {text : List Char} (n : Nat) (h : exponent? text = none) :
    exponent? (text.take n) = none := by
  cases text with
  | nil => rwa [List.take_nil]
  | cons e rest =>
    match n with
    | 0 => rfl
    | 1 => simp [exponent?]
    | n + 2 =>
      have hsign : (rest.take (n + 1)).take 1 = rest.take 1 := by
        rw [List.take_take, Nat.min_eq_left (by omega)]
      simp only [exponent?] at h
      simp only [List.take_succ_cons, exponent?, hsign, List.drop_take]
      split at h
      · cases h
      · next he =>
        rw [if_neg]
        rintro ⟨hmark, hdigits⟩
        exact he ⟨hmark, fun hnil => hdigits (takeWhile_take_eq_nil _ hnil)⟩

theorem fraction?_cons (whole : List Char) (f : Char) (rest : List Char) :
    fraction? whole (f :: rest) =
      if f = '.' then
        if rest.takeWhile Char.isDigit = [] then none
        else some (whole ++ '.' :: rest.takeWhile Char.isDigit ++
          (exponent? (rest.drop (rest.takeWhile Char.isDigit).length)).getD [])
      else if whole = [] then none
      else if f = 'f' ∨ f = 'F' then some (whole ++ [f])
      else (exponent? (f :: rest)).map (whole ++ ·) := by
  by_cases hf : f = '.'
  · subst hf
    rw [if_pos rfl]
    rfl
  · rw [if_neg hf]
    unfold fraction?
    split
    · next heq => exact absurd (List.cons.inj heq).1 hf
    · next heq =>
      obtain ⟨rfl, rfl⟩ := List.cons.inj heq
      rfl
    · next heq => cases heq

/-- A fraction is more than the digits before its mark. -/
theorem fraction?_length {whole rest number : List Char} (h : fraction? whole rest = some number) :
    whole.length < number.length := by
  cases rest with
  | nil => cases h
  | cons f rest =>
    rw [fraction?_cons] at h
    split at h
    · split at h
      · cases h
      · cases h
        simp only [List.length_append, List.length_cons]
        omega
    split at h
    · cases h
    split at h
    · cases h
      simp
    · obtain ⟨exponent, he, rfl⟩ := Option.map_eq_some_iff.mp h
      have hne : exponent ≠ [] := by
        rintro rfl
        simp only [exponent?] at he
        split at he
        · cases he
        · cases he
      have hpos := List.length_pos_iff.mpr hne
      rw [List.length_append]
      omega

theorem fraction?_take {whole rest number : List Char} {n : Nat}
    (h : fraction? whole rest = some number) (hn : number.length ≤ whole.length + n) :
    fraction? whole (rest.take n) = some number := by
  have hlt := fraction?_length h
  obtain ⟨n, rfl⟩ : ∃ m, n = m + 1 := ⟨n - 1, by omega⟩
  cases rest with
  | nil => cases h
  | cons f rest =>
    rw [List.take_succ_cons, fraction?_cons]
    rw [fraction?_cons] at h
    split at h
    · next hf =>
      rw [if_pos hf]
      split at h
      · cases h
      · next hdigits =>
        cases h
        simp only [List.length_append, List.length_cons] at hn
        rw [takeWhile_take (by omega), if_neg hdigits, List.drop_take]
        cases he : exponent? (rest.drop (rest.takeWhile Char.isDigit).length) with
        | none => rw [exponent?_take_eq_none _ he]
        | some exponent =>
          rw [he, Option.getD_some] at hn
          rw [exponent?_take he (by omega)]
    next hf =>
    rw [if_neg hf]
    split at h
    · cases h
    next hwhole =>
    rw [if_neg hwhole]
    split at h
    · next hmark =>
      rw [if_pos hmark]
      exact h
    · next hmark =>
      rw [if_neg hmark]
      obtain ⟨exponent, he, rfl⟩ := Option.map_eq_some_iff.mp h
      rw [List.length_append] at hn
      have hcut := exponent?_take he (n := n + 1) (by omega)
      rw [List.take_succ_cons] at hcut
      rw [hcut]
      rfl

/-- Where no fraction is, there is none when the text is cut off, whatever the
digits before are. -/
theorem fraction?_take_eq_none {whole rest : List Char} (n : Nat)
    (h : fraction? whole rest = none) : fraction? whole (rest.take n) = none := by
  cases rest with
  | nil => rwa [List.take_nil]
  | cons f rest =>
    cases n with
    | zero => rfl
    | succ n =>
      rw [List.take_succ_cons, fraction?_cons]
      rw [fraction?_cons] at h
      split at h
      · next hf =>
        rw [if_pos hf]
        split at h
        · next hdigits => rw [if_pos (takeWhile_take_eq_nil n hdigits)]
        · cases h
      next hf =>
      rw [if_neg hf]
      split at h
      · next hwhole => rw [if_pos hwhole]
      next hwhole =>
      rw [if_neg hwhole]
      split at h
      · cases h
      · next hmark =>
        rw [if_neg hmark]
        have hcut := exponent?_take_eq_none (n + 1) (Option.map_eq_none_iff.mp h)
        rw [List.take_succ_cons] at hcut
        rw [hcut]
        rfl

/-! ## Decimal numbers -/

/-- Whether a text begins with a mark of a fraction. -/
def beginsWithMark (text : List Char) : Bool := text.head?.any fractionMarks.contains

/-- A decimal number has the digits that the text begins with, and more if a
mark of a fraction follows them. -/
theorem decimal?_length {text number : List Char} {kind : TokenKind}
    (h : decimal? text = some (kind, number)) :
    (text.takeWhile Char.isDigit).length ≤ number.length ∧
      (beginsWithMark (text.drop (text.takeWhile Char.isDigit).length) = true →
        (text.takeWhile Char.isDigit).length < number.length) := by
  unfold decimal? at h
  simp only [] at h
  split at h
  · next hwhole =>
    cases h
    exact ⟨Nat.le_refl _, fun hmark => absurd hmark hwhole.2⟩
  · obtain ⟨number', hf, heq⟩ := Option.map_eq_some_iff.mp h
    cases heq
    have hlt := fraction?_length hf
    exact ⟨Nat.le_of_lt hlt, fun _ => hlt⟩

theorem decimal?_take {text number : List Char} {kind : TokenKind} {n : Nat}
    (h : decimal? text = some (kind, number)) (hn : number.length ≤ n) :
    decimal? (text.take n) = some (kind, number) := by
  unfold decimal? at h ⊢
  simp only [] at h ⊢
  split at h
  · next hwhole =>
    cases h
    rw [takeWhile_take hn, List.drop_take, if_pos]
    exact ⟨hwhole.1, fun hmark => hwhole.2 (any_head?_of_any_head?_take hmark)⟩
  · next hwhole =>
    obtain ⟨number', hf, heq⟩ := Option.map_eq_some_iff.mp h
    cases heq
    have hlt := fraction?_length hf
    rw [takeWhile_take (by omega), List.drop_take, head?_take_of_pos (by omega), if_neg hwhole,
      fraction?_take hf (by omega)]
    rfl

/-- Digits that are no number are none when the text is cut off behind
them. -/
theorem decimal?_take_eq_none {text : List Char} {n : Nat} (h : decimal? text = none)
    (hn : text.takeWhile Char.isDigit ≠ [] → (text.takeWhile Char.isDigit).length < n) :
    decimal? (text.take n) = none := by
  unfold decimal? at h ⊢
  simp only [] at h ⊢
  split at h
  · cases h
  · next hwhole =>
    have hf := Option.map_eq_none_iff.mp h
    by_cases hnil : text.takeWhile Char.isDigit = []
    · rw [hnil] at hf
      rw [takeWhile_take_eq_nil n hnil, if_neg (fun hne => hne.1 rfl), List.drop_take]
      rw [fraction?_take_eq_none _ hf]
      rfl
    · have hlt := hn hnil
      rw [takeWhile_take (Nat.le_of_lt hlt), List.drop_take, head?_take_of_pos (by omega),
        if_neg hwhole, fraction?_take_eq_none _ hf]
      rfl

theorem decimalTail?_take {c : Char} {cs more : List Char} {kind : TokenKind} {n : Nat}
    (h : decimalTail? c cs = some (kind, more)) (hn : more.length ≤ n) :
    decimalTail? c (cs.take n) = some (kind, more) := by
  unfold decimalTail? at h ⊢
  split at h
  · next hsign =>
    rw [if_pos hsign]
    exact decimal?_take h hn
  · next hsign =>
    rw [if_neg hsign]
    obtain ⟨⟨kind', number⟩, hd, heq⟩ := Option.map_eq_some_iff.mp h
    cases heq
    rw [List.length_tail] at hn
    have hcut := decimal?_take hd (n := n + 1) (by omega)
    rw [List.take_succ_cons] at hcut
    rw [hcut]
    rfl

/-- A digit or sign before digits that are no number begins none when the
text is cut off behind the digits. -/
theorem decimalTail?_take_eq_none {c : Char} {cs : List Char} {n : Nat}
    (h : decimalTail? c cs = none)
    (hn : c.isDigit = true ∨ isSign c = true → (cs.takeWhile Char.isDigit).length < n) :
    decimalTail? c (cs.take n) = none := by
  unfold decimalTail? at h ⊢
  split at h
  · next hsign =>
    rw [if_pos hsign]
    exact decimal?_take_eq_none h fun _ => hn (.inr hsign)
  · next hsign =>
    rw [if_neg hsign]
    have hcut := decimal?_take_eq_none (n := n + 1) (Option.map_eq_none_iff.mp h) (by
      rw [List.takeWhile_cons]
      split
      · next hdigit =>
        have hlt := hn (.inl hdigit)
        rw [List.length_cons]
        omega
      · exact fun hne => absurd rfl hne)
    rw [List.take_succ_cons] at hcut
    rw [hcut]
    rfl

/-! ## Any number -/

theorem isDigit_of_isOctalDigit {c : Char} (h : isOctalDigit c = true) : c.isDigit = true := by
  simp only [isOctalDigit, Bool.and_eq_true, decide_eq_true_eq, Char.le_def,
    UInt32.le_iff_toNat_le] at h
  have h₀ : '0'.toNat ≤ c.toNat := h.1
  have h₇ : c.toNat ≤ '7'.toNat := h.2
  exact Char.isDigit_iff_toNat.mpr ⟨h₀, Nat.le_trans h₇ (by decide)⟩

theorem octal_length_le (cs : List Char) :
    (cs.takeWhile isOctalDigit).length ≤ (cs.takeWhile Char.isDigit).length := by
  induction cs with
  | nil => exact Nat.le_refl _
  | cons c cs ih =>
    rw [List.takeWhile_cons, List.takeWhile_cons]
    split
    · next h =>
      rw [if_pos (isDigit_of_isOctalDigit h)]
      exact Nat.succ_le_succ ih
    · exact Nat.zero_le _

/-- Octal digits before an `8`, a `9` or a mark of a fraction are not all
digits, or are all digits before a mark. -/
theorem octal_length_lt_or (cs : List Char)
    (h : (cs.drop (cs.takeWhile isOctalDigit).length).head?.any
      ('8' :: '9' :: fractionMarks).contains = true) :
    (cs.takeWhile isOctalDigit).length < (cs.takeWhile Char.isDigit).length ∨
      beginsWithMark (cs.drop (cs.takeWhile Char.isDigit).length) = true := by
  induction cs with
  | nil => cases h
  | cons c cs ih =>
    by_cases hoctal : isOctalDigit c = true
    · have hdigit := isDigit_of_isOctalDigit hoctal
      rw [List.takeWhile_cons, if_pos hoctal, List.length_cons, List.drop_succ_cons] at h
      rw [List.takeWhile_cons, List.takeWhile_cons, if_pos hoctal, if_pos hdigit, List.length_cons,
        List.length_cons, List.drop_succ_cons]
      exact (ih h).imp_left Nat.succ_lt_succ
    · rw [List.takeWhile_cons, if_neg hoctal] at h
      have hc : c ∈ '8' :: '9' :: fractionMarks := by simpa using h
      rw [List.takeWhile_cons, List.takeWhile_cons, if_neg hoctal]
      rcases List.mem_cons.mp hc with rfl | hc
      · exact .inl (Nat.succ_pos _)
      rcases List.mem_cons.mp hc with rfl | hc
      · exact .inl (Nat.succ_pos _)
      · have hdigit : ∀ d ∈ fractionMarks, d.isDigit = false := forall_mem_of_all (by decide)
        rw [if_neg (by rw [hdigit c hc]; exact Bool.false_ne_true)]
        refine .inr ?_
        simpa [beginsWithMark] using hc

/-- Octal digits that are not a number, because of what follows, are fewer
than what belongs to the decimal number there. -/
theorem octal_length_lt {cs more : List Char} {kind : TokenKind} (hoctal : octalTail? '0' cs = none)
    (hne : cs.takeWhile isOctalDigit ≠ []) (h : decimalTail? '0' cs = some (kind, more)) :
    (cs.takeWhile isOctalDigit).length < more.length := by
  obtain ⟨⟨kind', number⟩, hd, heq⟩ := Option.map_eq_some_iff.mp h
  cases heq
  have hwhole : ('0' :: cs).takeWhile Char.isDigit = '0' :: cs.takeWhile Char.isDigit := rfl
  obtain ⟨hle, hmore⟩ := decimal?_length hd
  rw [hwhole, List.length_cons] at hle hmore
  rw [List.drop_succ_cons] at hmore
  have hnext : (cs.drop (cs.takeWhile isOctalDigit).length).head?.any
      ('8' :: '9' :: fractionMarks).contains = true := by
    unfold octalTail? at hoctal
    rw [if_pos rfl] at hoctal
    simp only [] at hoctal
    split at hoctal
    · next hend => exact hend.resolve_left hne
    · cases hoctal
  have hoct := octal_length_le cs
  rw [List.length_tail]
  rcases octal_length_lt_or cs hnext with hlt | hmark
  · omega
  · have := hmore hmark
    omega

/-- A number is the same when the text is cut off at its end or further on.
What is no number is none if a digit or sign has the cut behind the digits
that follow it. -/
theorem numberMove_take {nameExpected : Bool} {c : Char} {cs : List Char} {move : Move State}
    {n : Nat} (h : numberMove nameExpected c cs = move) (hn : move.further ≤ n)
    (hbad : move = .token .error c [] (.code nameExpected) →
      c.isDigit = true ∨ isSign c = true → (cs.takeWhile Char.isDigit).length < n) :
    numberMove nameExpected c (cs.take n) = move := by
  unfold numberMove at h ⊢
  split at h
  · next hhex =>
    subst h
    rw [hexTail?_take hhex hn]
  next hhex =>
  rw [hexTail?_take_eq_none n hhex]
  split at h
  · next hoctal =>
    subst h
    rw [octalTail?_take hoctal hn]
  next hoctal =>
  split at h
  · next hdecimal =>
    subst h
    have hcut : octalTail? c (cs.take n) = none := by
      refine octalTail?_take_eq_none hoctal ?_
      rintro rfl hne
      exact Nat.lt_of_lt_of_le (octal_length_lt hoctal hne hdecimal) hn
    rw [hcut, decimalTail?_take hdecimal hn]
  next hdecimal =>
  split at h
  · next hc =>
    subst h
    obtain ⟨rfl, hd⟩ := hc
    have hpos : 0 < n := hn
    rw [octalTail?_take_eq_none hoctal (fun hc => absurd hc (by decide)),
      decimalTail?_take_eq_none hdecimal (fun hc => absurd hc (by decide)), head?_take_of_pos hpos]
    exact if_pos ⟨rfl, hd⟩
  · next hc =>
    have hlt := hbad h.symm
    have hcut : octalTail? c (cs.take n) = none := by
      refine octalTail?_take_eq_none hoctal ?_
      rintro rfl -
      exact Nat.lt_of_le_of_lt (octal_length_le cs) (hlt (.inl rfl))
    rw [hcut, decimalTail?_take_eq_none hdecimal hlt]
    simp only []
    rw [if_neg (fun hd => hc ⟨hd.1, head?_of_head?_take hd.2⟩)]
    exact h

theorem decimal?_ne_nil {text number : List Char} {kind : TokenKind}
    (h : decimal? text = some (kind, number)) : number ≠ [] := by
  unfold decimal? at h
  simp only [] at h
  split at h
  · next hwhole =>
    cases h
    exact hwhole.1
  · obtain ⟨number', hf, heq⟩ := Option.map_eq_some_iff.mp h
    cases heq
    exact List.length_pos_iff.mp (Nat.lt_of_le_of_lt (Nat.zero_le _) (fraction?_length hf))

/-- A point before a digit begins a fraction. -/
theorem decimalTail?_point {cs : List Char} (h : cs.head?.any Char.isDigit = true) :
    ∃ more, decimalTail? '.' cs = some (.float, more) ∧ more ≠ [] := by
  obtain ⟨d, hhead, hd⟩ := (Option.any_eq_true _ _).mp h
  obtain ⟨ds, rfl⟩ := List.head?_eq_some_iff.mp hhead
  have hrun : (d :: ds).takeWhile Char.isDigit = d :: ds.takeWhile Char.isDigit := by
    rw [List.takeWhile_cons, if_pos hd]
  have hfraction : fraction? [] ('.' :: d :: ds) = some ('.' :: d :: (ds.takeWhile Char.isDigit ++
      (exponent? (ds.drop (ds.takeWhile Char.isDigit).length)).getD [])) := by
    rw [fraction?_cons, if_pos rfl, hrun, if_neg (List.cons_ne_nil _ _)]
    rfl
  have hdecimal : decimal? ('.' :: d :: ds) = (fraction? [] ('.' :: d :: ds)).map (.float, ·) := rfl
  have htail : decimalTail? '.' (d :: ds) = some (.float, d :: (ds.takeWhile Char.isDigit ++
      (exponent? (ds.drop (ds.takeWhile Char.isDigit).length)).getD [])) := by
    unfold decimalTail?
    rw [hdecimal, hfraction]
    rfl
  exact ⟨_, htail, List.cons_ne_nil _ _⟩

theorem hexTail?_eq_none_of_ne {c : Char} (hc : c ≠ '0') (cs : List Char) :
    hexTail? c cs = none := by
  unfold hexTail?
  split
  · exact if_neg fun hx => hc hx.1
  · rfl

/-- A character that begins no number and no constant is an error there. -/
theorem numberMove_eq_error {c : Char} {cs : List Char} (hzero : c ≠ '0')
    (hdecimal : decimalTail? c cs = none) (hback : ¬ (c = '\\' ∧ cs.head? = some 'N'))
    (nameExpected : Bool) :
    numberMove nameExpected c cs = .token .error c [] (.code nameExpected) := by
  have hoctal : octalTail? c cs = none := if_neg hzero
  unfold numberMove
  rw [hexTail?_eq_none_of_ne hzero, hoctal, hdecimal]
  exact if_neg hback

/-- A sign or point that is no operator begins a number, which takes more than
itself, or is a sign that begins nothing. -/
theorem numberMove_of_numeric {c : Char} {cs : List Char} (hc : c ∈ numericOperatorChars)
    (hop : isOperator c cs = false) (nameExpected : Bool) :
    (isSign c = true ∧
      numberMove nameExpected c cs = .token .error c [] (.code nameExpected)) ∨
      0 < (numberMove nameExpected c cs).further := by
  have hclass : ∀ e ∈ numericOperatorChars, e ≠ '0' ∧ e ≠ '\\' ∧ (isSign e = true ∨ e = '.') :=
    forall_mem_of_all (by decide)
  obtain ⟨hzero, hback, hkind⟩ := hclass c hc
  have hoctal : octalTail? c cs = none := if_neg hzero
  rcases hkind with hsign | rfl
  · cases hdecimal : decimalTail? c cs with
    | none => exact .inl ⟨hsign, numberMove_eq_error hzero hdecimal (fun h => hback h.1) _⟩
    | some found =>
      obtain ⟨kind, more⟩ := found
      unfold numberMove
      rw [hexTail?_eq_none_of_ne hzero, hoctal, hdecimal]
      unfold decimalTail? at hdecimal
      rw [if_pos hsign] at hdecimal
      exact .inr (List.length_pos_iff.mpr (decimal?_ne_nil hdecimal))
  · have hdigit : cs.head?.any Char.isDigit = true := by
      have hnot : operatorChars.contains '.' = false := by decide
      have hpoint : numericOperatorChars.contains '.' = true := by decide
      unfold isOperator at hop
      rw [hnot, hpoint] at hop
      simpa using hop
    obtain ⟨more, hdecimal, hne⟩ := decimalTail?_point hdigit
    unfold numberMove
    rw [hexTail?_eq_none_of_ne hzero, hoctal, hdecimal]
    exact .inr (List.length_pos_iff.mpr hne)

end Highlight1C.QueryLexer
