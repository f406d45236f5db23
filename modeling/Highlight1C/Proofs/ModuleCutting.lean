import Highlight1C.Proofs.Cutting
import Highlight1C.Proofs.ModuleLexer

/-!
# Module code that is cut off

No rule of module code needs more than the token it reads: each recogniser
finds the same in a text that is cut off at the end of what it found or
further on, and nothing where it found nothing (`operatorTail?_take`,
`fraction?_take` and so on). So every move is the same (`codeMove_take`,
`stringMove?_take`), and the text can be cut behind every token
(`cuttable`).
-/

namespace Highlight1C.ModuleLexer

open Text

/-! ## Recognisers -/

theorem operatorTail?_take {c : Char} {cs more : List Char} {n : Nat}
    (h : operatorTail? c cs = some more) (hn : more.length ≤ n) :
    operatorTail? c (cs.take n) = some more := by
  cases cs with
  | nil => rwa [List.take_nil]
  | cons d ds =>
    cases n with
    | succ n => exact h
    | zero =>
      have hmore : more = [] := List.length_eq_zero_iff.mp (Nat.le_zero.mp hn)
      subst hmore
      simp only [operatorTail?] at h
      split at h
      · cases h
      · exact h

theorem operatorTail?_take_eq_none {c : Char} {cs : List Char} (n : Nat)
    (h : operatorTail? c cs = none) : operatorTail? c (cs.take n) = none := by
  cases cs with
  | nil => rwa [List.take_nil]
  | cons d ds =>
    cases n with
    | succ n => exact h
    | zero =>
      simp only [operatorTail?] at h
      split at h
      · cases h
      · exact h

theorem fraction?_cons (c : Char) (cs : List Char) :
    fraction? (c :: cs) =
      if c = '.' ∧ cs.takeWhile Char.isDigit ≠ [] then some ('.' :: cs.takeWhile Char.isDigit)
      else none := by
  by_cases hc : c = '.'
  · subst hc
    simp only [fraction?, List.isEmpty_iff, true_and, ne_eq, ite_not]
  · rw [if_neg (fun h => hc h.1)]
    unfold fraction?
    split
    · next heq => exact absurd (List.cons.inj heq).1 hc
    · rfl

theorem fraction?_take {text fraction : List Char} {n : Nat} (h : fraction? text = some fraction)
    (hn : fraction.length ≤ n) : fraction? (text.take n) = some fraction := by
  cases text with
  | nil => cases h
  | cons c cs =>
    rw [fraction?_cons] at h
    split at h
    · next hc =>
      cases h
      cases n with
      | zero => cases hn
      | succ n =>
        have hrun := takeWhile_take (Nat.le_of_succ_le_succ hn)
        rw [List.take_succ_cons, fraction?_cons, hrun, if_pos hc]
    · cases h

theorem fraction?_take_eq_none {text : List Char} (n : Nat) (h : fraction? text = none) :
    fraction? (text.take n) = none := by
  cases text with
  | nil => rwa [List.take_nil]
  | cons c cs =>
    cases n with
    | zero => rfl
    | succ n =>
      rw [fraction?_cons] at h
      split at h
      · cases h
      · next hc =>
        rw [List.take_succ_cons, fraction?_cons, if_neg]
        rintro ⟨hdot, hrun⟩
        exact hc ⟨hdot, fun hnil => hrun (takeWhile_take_eq_nil n hnil)⟩

/-! ## Moves -/

/-- A move outside strings does not depend on what follows what it takes: the
tests before the one that holds still fail, and that one still holds. -/
theorem codeMove_take {nameFollows : Bool} {c : Char} {cs : List Char} {move : Move State} {n : Nat}
    (h : codeMove nameFollows c cs = move) (hn : move.further ≤ n) :
    codeMove nameFollows c (cs.take n) = move := by
  unfold codeMove at h ⊢
  split at h
  · next hc =>
    subst h
    rw [if_pos hc, takeWhile_take hn]
  next hspace =>
  rw [if_neg hspace]
  split at h
  · next hc =>
    subst h
    rw [if_pos hc, restOfLine_take hn]
  next hhash =>
  rw [if_neg hhash]
  split at h
  · next hc =>
    subst h
    have hline := restOfLine_take hn
    rw [hline, if_pos hc]
  next hdirective =>
  rw [if_neg (fun hd => hdirective ⟨hd.1, fun hnil => hd.2 (takeWhile_take_eq_nil n hnil)⟩)]
  split at h
  · next hc =>
    subst h
    obtain ⟨ds, rfl⟩ := List.head?_eq_some_iff.mp hc.2
    have hpos : 0 < n := Nat.lt_of_lt_of_le (Nat.succ_pos _) hn
    rw [head?_take_of_pos hpos, if_pos hc, restOfLine_take hn]
  next hcomment =>
  rw [if_neg (fun hd => hcomment ⟨hd.1, head?_of_head?_take hd.2⟩)]
  split at h
  · next hop =>
    subst h
    rw [operatorTail?_take hop hn]
  next hop =>
  rw [operatorTail?_take_eq_none n hop]
  simp only []
  split at h
  · next hc =>
    subst h
    rw [if_pos hc, takeWhile_take hn]
  next hword =>
  rw [if_neg hword]
  split at h
  · next hc =>
    rw [if_pos hc]
    exact h
  next hquote =>
  rw [if_neg hquote]
  split at h
  · next hc =>
    rw [if_pos hc]
    unfold numberMove at h ⊢
    simp only [] at h ⊢
    split at h
    · next fraction hf =>
      subst h
      have hlen : (cs.takeWhile Char.isDigit).length + fraction.length ≤ n := by
        simpa [Move.token] using hn
      rw [takeWhile_take (by omega), List.drop_take, fraction?_take hf (by omega)]
    · next hf =>
      subst h
      rw [takeWhile_take hn, List.drop_take, fraction?_take_eq_none _ hf]
  next hdigit =>
  rw [if_neg hdigit]
  exact h

/-- Nor does a move within a string. -/
theorem stringMove?_take {c : Char} {cs : List Char} {move : Move State} {n : Nat}
    (h : stringMove? c cs = some move) (hn : move.further ≤ n) :
    stringMove? c (cs.take n) = some move := by
  unfold stringMove? at h ⊢
  simp only [] at h ⊢
  split at h
  · next hc =>
    obtain rfl := Option.some.inj h
    rw [if_pos hc, takeWhile_take hn]
  next hc =>
  rw [if_neg hc]
  split at h
  · next hd =>
    obtain rfl := Option.some.inj h
    rw [head?_take_of_pos hn, if_pos hd]
  next hd =>
  rw [if_neg (fun hd' => hd ⟨hd'.1, head?_of_head?_take hd'.2⟩)]
  exact h

theorem step_take {state : State} {c : Char} {cs : List Char} {move : Move State} {n : Nat}
    (h : lexer.step state c cs = some move) (hn : move.further ≤ n) :
    lexer.step state c (cs.take n) = some move := by
  cases state with
  | code nameFollows => exact congrArg some (codeMove_take (Option.some.inj h) hn)
  | string => exact stringMove?_take h hn

/-! ## Cuts -/

/-- A move outside strings writes nothing behind its token. -/
theorem CodeRule.after_eq {nameFollows : Bool} {c : Char} {cs : List Char} {move : Move State}
    {before after : List (Piece Lexeme)} {l : Lexeme} (h : CodeRule nameFollows c cs move)
    (hw : move.writes = before ++ .token l :: after) : after = [] := by
  cases h with
  | opening =>
    cases before with
    | nil => cases hw
    | cons p before => exact (singleton_eq_split (List.cons.inj hw).2).2.2
  | _ => exact (singleton_eq_split hw).2.2

/-- Behind its token, a move within a string writes at most the end of the
group. -/
theorem StringRule.after_eq {c : Char} {cs : List Char} {move : Move State}
    {before after : List (Piece Lexeme)} {l : Lexeme} (h : StringRule c cs move)
    (hw : move.writes = before ++ .token l :: after) : after = [] ∨ after = [.endGroup] := by
  cases h with
  | content => exact .inl (singleton_eq_split hw).2.2
  | doubled => exact .inl (singleton_eq_split hw).2.2
  | closing =>
    cases before with
    | nil => exact .inr (List.cons.inj hw).2.symm
    | cons p before => cases (singleton_eq_split (List.cons.inj hw).2).2.1

theorem after_eq_of_writes_eq {state : State} {c : Char} {cs : List Char} {move : Move State}
    {before after : List (Piece Lexeme)} {l : Lexeme} (h : lexer.step state c cs = some move)
    (hw : move.writes = before ++ .token l :: after) : after = [] ∨ after = [.endGroup] := by
  cases state with
  | code nameFollows => exact .inl ((codeRule_of_step h).after_eq hw)
  | string => exact (stringRule_of_step h).after_eq hw

/-- Module code can be cut behind every token. -/
theorem cuttable : lexer.Cuttable held fun _ => True where
  within hs hw _ :=
    lossless.cutsAfter_move (step_take hs (Nat.le_refl _)) rfl hw (after_eq_of_writes_eq hs hw)
  beyond hs _ _ _ := step_take hs (Nat.le_add_right _ _)
  flush h := absurd h (by simp [lexer])

end Highlight1C.ModuleLexer
