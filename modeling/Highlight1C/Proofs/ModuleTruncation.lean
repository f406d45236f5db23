import Highlight1C.Proofs.ModuleCutting
import Highlight1C.Proofs.Pieces

/-!
# Module code that ends anywhere

Module code that is cut off at any character keeps its tokens, except for the
last two at most. A move that ends before the cut is the same
(`step_take`), whatever the cut leaves of the token behind it. A move that the
cut falls into becomes one that takes all that is left, or the cut is behind
the point of a fraction, and then its digits and the point are a token each
(`codeMove_take_within`). So what comes of the move that is cut are two tokens
at most (`length_remnant`), and all before it is as in the whole text
(`eventsFrom_take`).
-/

namespace Highlight1C

/-! ## Tokens in their places -/

theorem tokens_placeFrom_append (behind : List Char) (a b : List (Piece Lexeme)) :
    TokenStream.tokens ⟨placeFrom behind (a ++ b)⟩ =
      TokenStream.tokens ⟨placeFrom behind a⟩ ++
        TokenStream.tokens ⟨placeFrom (behind ++ textOf a) b⟩ := by
  rw [placeFrom_append]
  exact List.filterMap_append

theorem length_tokens_placeFrom (behind : List Char) (ps : List (Piece Lexeme)) :
    (TokenStream.tokens ⟨placeFrom behind ps⟩).length = (lexemesOf ps).length := by
  rw [← lexemes_placeFrom behind, TokenStream.lexemes, List.length_map]

namespace ModuleLexer

open Text

/-! ## A move that the cut falls into -/

theorem operatorTail?_length {c : Char} {cs more : List Char} (h : operatorTail? c cs = some more) :
    more.length ≤ 1 := by
  unfold operatorTail? at h
  split at h
  · split at h
    · cases h
      exact Nat.le_refl 1
    split at h
    · cases h
      exact Nat.zero_le 1
    · cases h
  · split at h
    · cases h
      exact Nat.zero_le 1
    · cases h

/-- A point with digits that is cut off is still one, unless it is cut off
behind the point or in front of it. -/
theorem fraction?_take_within {text fraction : List Char} {n : Nat}
    (h : fraction? text = some fraction) (hn : n < fraction.length) :
    fraction? (text.take n) = some (text.take n) ∨
      fraction? (text.take n) = none ∧ (text.take n = [] ∨ text.take n = ['.']) := by
  cases text with
  | nil => cases h
  | cons c cs =>
    rw [fraction?_cons] at h
    split at h
    · next hc =>
      obtain ⟨rfl, hrun⟩ := hc
      cases h
      match n with
      | 0 => exact .inr ⟨rfl, .inl rfl⟩
      | 1 => exact .inr ⟨rfl, .inr rfl⟩
      | n + 2 =>
        have hle : n + 1 ≤ (cs.takeWhile Char.isDigit).length := by
          rw [List.length_cons] at hn
          omega
        have hne : cs.take (n + 1) ≠ [] := by
          intro hnil
          rw [← takeWhile_take_of_le hle, ← List.take_takeWhile] at hnil
          simp [hrun] at hnil
        left
        rw [List.take_succ_cons, fraction?_cons, takeWhile_take_of_le hle, if_pos ⟨rfl, hne⟩]
    · cases h

theorem numberMove_float {c : Char} {cs digits fraction : List Char}
    (hdigits : cs.takeWhile Char.isDigit = digits)
    (hf : fraction? (cs.drop digits.length) = some fraction) :
    numberMove c cs = .token .float c (digits ++ fraction) (.code false) := by
  subst hdigits
  simp only [numberMove, hf]

theorem numberMove_integer {c : Char} {cs digits : List Char}
    (hdigits : cs.takeWhile Char.isDigit = digits) (hf : fraction? (cs.drop digits.length) = none) :
    numberMove c cs = .token .integer c digits (.code false) := by
  subst hdigits
  simp only [numberMove, hf]

/-- A number that is cut off is still one, unless it is cut off behind the point
of a fraction: then its digits are one in front of the point. -/
theorem numberMove_take_within {c : Char} {cs : List Char} {n : Nat}
    (hn : n < (numberMove c cs).further) :
    (cs.take n).length ≤ (numberMove c (cs.take n)).further ∨
      ∃ digits, cs.take n = digits ++ ['.'] ∧
        numberMove c (cs.take n) = .token .integer c digits (.code false) := by
  rcases Nat.le_total n (cs.takeWhile Char.isDigit).length with hle | hle
  · have hdigits := takeWhile_take_of_le hle
    rw [numberMove_integer hdigits (by rw [List.drop_length]; rfl)]
    exact .inl (Nat.le_refl _)
  have hdigits : (cs.take n).takeWhile Char.isDigit = cs.takeWhile Char.isDigit := takeWhile_take hle
  generalize hwhole : cs.takeWhile Char.isDigit = digits at hle hdigits
  have hsplit : digits ++ (cs.take n).drop digits.length = cs.take n := by
    rw [← hdigits]
    exact List.prefix_iff_eq_append.mp (List.takeWhile_prefix _)
  cases hf : fraction? (cs.drop digits.length) with
  | none =>
    rw [numberMove_integer hwhole hf] at hn
    exact absurd hn (Nat.not_lt.mpr hle)
  | some fraction =>
    rw [numberMove_float hwhole hf] at hn
    have hfraction : n - digits.length < fraction.length := by
      have hn : n < (digits ++ fraction).length := hn
      rw [List.length_append] at hn
      omega
    rcases fraction?_take_within hf hfraction with hsome | ⟨hnone, hleft⟩
    · rw [← List.drop_take] at hsome
      rw [numberMove_float hdigits hsome, hsplit]
      exact .inl (Nat.le_refl _)
    · rw [← List.drop_take] at hnone hleft
      rw [numberMove_integer hdigits hnone]
      rcases hleft with hnil | hpoint
      · left
        rw [← hsplit, hnil, List.append_nil]
        exact Nat.le_refl _
      · right
        rw [← hsplit, hpoint]
        exact ⟨digits, rfl, rfl⟩

/-- What comes of a move outside strings that the cut falls into takes all that
is left, or the digits in front of the point of a fraction: the test that held
still does, except for the second slash of a comment and the digits of a
fraction. -/
theorem codeMove_take_within {nameFollows : Bool} {c : Char} {cs : List Char}
    {move cut : Move State} {n : Nat} (h : codeMove nameFollows c cs = move)
    (hcut : codeMove nameFollows c (cs.take n) = cut) (hn : n < move.further) :
    (cs.take n).length ≤ cut.further ∨
      ∃ digits, cs.take n = digits ++ ['.'] ∧ cut = .token .integer c digits (.code false) := by
  cases n with
  | zero => exact .inl (Nat.zero_le _)
  | succ n =>
  -- a run that goes beyond the cut goes up to it
  have run {p : Char → Bool} (hrun : n + 1 < (cs.takeWhile p).length) :
      (cs.take (n + 1)).takeWhile p = cs.take (n + 1) := takeWhile_take_of_le (Nat.le_of_lt hrun)
  have line (hrun : n + 1 < (restOfLine cs).length) :
      restOfLine (cs.take (n + 1)) = cs.take (n + 1) := run hrun
  unfold codeMove at h hcut
  split at h
  · next hc =>
    subst h
    rw [if_pos hc, run hn] at hcut
    exact .inl (hcut ▸ Nat.le_refl _)
  next hspace =>
  rw [if_neg hspace] at hcut
  split at h
  · next hc =>
    subst h
    rw [if_pos hc, line hn] at hcut
    exact .inl (hcut ▸ Nat.le_refl _)
  next hhash =>
  rw [if_neg hhash] at hcut
  split at h
  · next hc =>
    subst h
    have hne : cs.take (n + 1) ≠ [] := by
      intro hnil
      rcases List.take_eq_nil_iff.mp hnil with hzero | rfl
      · cases hzero
      · cases hn
    rw [line hn, if_pos ⟨hc.1, hne⟩] at hcut
    exact .inl (hcut ▸ Nat.le_refl _)
  next hdirective =>
  rw [if_neg (fun hd => hdirective ⟨hd.1, fun hnil => hd.2 (takeWhile_take_eq_nil _ hnil)⟩)] at hcut
  split at h
  · next hc =>
    subst h
    rw [head?_take_of_pos (Nat.succ_pos n), if_pos hc, line hn] at hcut
    exact .inl (hcut ▸ Nat.le_refl _)
  next hcomment =>
  rw [if_neg (fun hd => hcomment ⟨hd.1, head?_of_head?_take hd.2⟩)] at hcut
  split at h
  · next more hop =>
    subst h
    have hone := operatorTail?_length hop
    have hn : n + 1 < more.length := hn
    omega
  next hop =>
  rw [operatorTail?_take_eq_none _ hop] at hcut
  simp only [] at hcut
  split at h
  · next hc =>
    subst h
    rw [if_pos hc, run hn] at hcut
    exact .inl (hcut ▸ Nat.le_refl _)
  next hword =>
  rw [if_neg hword] at hcut
  split at h
  · subst h
    cases hn
  next hquote =>
  rw [if_neg hquote] at hcut
  split at h
  · next hc =>
    rw [if_pos hc] at hcut
    subst h hcut
    exact numberMove_take_within hn
  · subst h
    cases hn

/-- What comes of a move within a string that the cut falls into takes all that
is left. -/
theorem stringMove?_take_within {c : Char} {cs : List Char} {move : Move State} {n : Nat}
    (h : StringRule c cs move) (hn : n < move.further) :
    ∃ cut, stringMove? c (cs.take n) = some cut ∧ (cs.take n).length ≤ cut.further := by
  obtain ⟨cut, hcut, hrule⟩ := stringMove?_rule c (cs.take n)
  refine ⟨cut, hcut, ?_⟩
  cases h with
  | content hc =>
    have hrun : (cs.take n).takeWhile (· != quote) = cs.take n :=
      takeWhile_take_of_le (Nat.le_of_lt hn)
    cases hrule with
    | content => exact Nat.le_of_eq (congrArg List.length hrun.symm)
    | doubled hquote | closing hquote => exact absurd hquote hc
  | doubled =>
    have hzero : n = 0 := Nat.lt_one_iff.mp hn
    rw [hzero]
    exact Nat.zero_le _
  | closing => cases hn

/-! ## What is left of it -/

theorem lexemesOf_eventsFrom_nil (state : State) : lexemesOf (lexer.eventsFrom state []) = [] := by
  rw [lexer.eventsFrom_nil]
  cases state <;> rfl

/-- A move that takes all that is left writes the last token. -/
theorem length_lexemesOf_all {state : State} {c : Char} {cs : List Char} {move : Move State}
    (hs : lexer.step state c cs = some move) (hall : cs.length ≤ move.further) :
    (lexemesOf (lexer.eventsFrom state (c :: cs))).length = 1 := by
  obtain ⟨l, hone⟩ := lexemesOf_writes hs
  rw [lexer.eventsFrom_cons hs, List.drop_of_length_le hall, lexemesOf_append, hone,
    lexemesOf_eventsFrom_nil]
  rfl

/-- There are at most two tokens left of a move that the cut falls into. -/
theorem length_remnant {state : State} {c : Char} {cs : List Char} {move : Move State} {n : Nat}
    (hs : lexer.step state c cs = some move) (hn : n < move.further) :
    (lexemesOf (lexer.eventsFrom state (c :: cs.take n))).length ≤ 2 := by
  cases state with
  | code nameFollows =>
    have hmove : codeMove nameFollows c cs = move := Option.some.inj hs
    have hcut : lexer.step (.code nameFollows) c (cs.take n) =
      some (codeMove nameFollows c (cs.take n)) := rfl
    rcases codeMove_take_within hmove rfl hn with hall | ⟨digits, htext, hinteger⟩
    · rw [length_lexemesOf_all hcut hall]
      exact Nat.le_succ 1
    · -- the digits, and then the point with which the text ends
      have hpoint : lexer.step (.code false) '.' [] = some (.token .operator '.' [] (.code true)) := rfl
      rw [hinteger] at hcut
      have hdrop : (digits ++ ['.']).drop digits.length = ['.'] := List.drop_left
      rw [lexer.eventsFrom_cons hcut, lexemesOf_append, List.length_append, htext]
      show 1 + (lexemesOf (lexer.eventsFrom (.code false)
        ((digits ++ ['.']).drop digits.length))).length ≤ 2
      rw [hdrop]
      exact Nat.add_le_add_left (Nat.le_of_eq (length_lexemesOf_all hpoint (Nat.le_refl 0))) 1
  | string =>
    obtain ⟨cut, hcut, hall⟩ := stringMove?_take_within (stringRule_of_step hs) hn
    have hcut : lexer.step .string c (cs.take n) = some cut := hcut
    rw [length_lexemesOf_all hcut hall]
    exact Nat.le_succ 1

/-- The events of a text that is cut off anywhere are those of the whole text,
except for what holds two tokens at most. -/
theorem eventsFrom_take (state : State) (text : List Char) (n : Nat) :
    ∃ common lost left, lexer.eventsFrom state text = common ++ lost ∧
      lexer.eventsFrom state (text.take n) = common ++ left ∧ (lexemesOf left).length ≤ 2 := by
  have atEnd (state : State) : (lexemesOf (lexer.eventsFrom state [])).length ≤ 2 := by
    rw [lexemesOf_eventsFrom_nil]
    exact Nat.zero_le 2
  induction state, text using lossless.induction generalizing n with
  | nil state =>
    rw [List.take_nil]
    exact ⟨[], _, _, (List.nil_append _).symm, (List.nil_append _).symm, atEnd state⟩
  | cons state c cs move hs _ ih =>
    cases n with
    | zero =>
      exact ⟨[], _, _, (List.nil_append _).symm, (List.nil_append _).symm, atEnd state⟩
    | succ n =>
      rw [List.take_succ_cons]
      rcases Nat.lt_or_ge n move.further with hn | hn
      · exact ⟨[], _, _, (List.nil_append _).symm, (List.nil_append _).symm, length_remnant hs hn⟩
      · obtain ⟨common, lost, left, htext, hcut, hleft⟩ := ih (n - move.further)
        refine ⟨move.writes ++ common, lost, left, ?_, ?_, hleft⟩
        · rw [lexer.eventsFrom_cons hs, htext, List.append_assoc]
        · rw [lexer.eventsFrom_cons (step_take hs hn), List.drop_take, hcut, List.append_assoc]

end ModuleLexer

/-- A source of module code, of at most 2³² − 2 characters, that is cut off at
any character keeps its tokens: those of what is left are, without the last
two, the first ones of the whole source, with the same kinds and texts and in
the same places. -/
theorem tokenize_isPrefix (source : List Char) (hsize : source.length ≤ sourceBound) :
    ∃ stream, tokenize .module source = .ok (.ok stream) ∧
      ∀ start, start <+: source →
        ∃ cut, tokenize .module start = .ok (.ok cut) ∧
          cut.tokens.take (cut.tokens.length - 2) <+: stream.tokens := by
  refine ⟨_, tokenize_eq hsize, fun start hstart => ?_⟩
  refine ⟨_, tokenize_eq (Nat.le_trans hstart.length_le hsize), ?_⟩
  obtain ⟨common, lost, left, htext, hcut, hleft⟩ :=
    ModuleLexer.eventsFrom_take ModuleLexer.lexer.start source start.length
  rw [← List.prefix_iff_eq_take.mp hstart] at hcut
  have hwhole : (Language.stream .module source).tokens =
      TokenStream.tokens ⟨placeFrom [] (common ++ lost)⟩ :=
    congrArg (fun ps => TokenStream.tokens ⟨placeFrom [] ps⟩) htext
  have hstart : (Language.stream .module start).tokens =
      TokenStream.tokens ⟨placeFrom [] (common ++ left)⟩ :=
    congrArg (fun ps => TokenStream.tokens ⟨placeFrom [] ps⟩) hcut
  rw [hwhole, hstart, tokens_placeFrom_append, tokens_placeFrom_append]
  have hle : (TokenStream.tokens ⟨placeFrom [] common⟩ ++
      TokenStream.tokens ⟨placeFrom ([] ++ textOf common) left⟩).length - 2 ≤
        (TokenStream.tokens ⟨placeFrom [] common⟩).length := by
    rw [List.length_append, length_tokens_placeFrom _ left]
    omega
  rw [List.take_append_of_le_length hle]
  exact (List.take_prefix _ _).trans (List.prefix_append _ _)

/-- Cut off behind the point of its fraction, this code keeps all tokens but two
in front of it, and the two that are left there are others. -/
theorem tokenize_isPrefix_point :
    ∃ stream cut, tokenize .module ['а', '=', '1', '.', '5'] = .ok (.ok stream) ∧
      tokenize .module ['а', '=', '1', '.'] = .ok (.ok cut) ∧
      cut.tokens.length = 4 ∧ cut.tokens.take 2 <+: stream.tokens ∧
      ¬ cut.tokens.take 3 <+: stream.tokens := by
  obtain ⟨stream, hstream, hcuts⟩ := tokenize_isPrefix ['а', '=', '1', '.', '5'] (by decide)
  obtain ⟨cut, hcut, hkept⟩ := hcuts ['а', '=', '1', '.'] ⟨['5'], rfl⟩
  cases hstream.symm.trans (tokenize_eq (by decide))
  cases hcut.symm.trans (tokenize_eq (by decide))
  have hlength : (Language.stream .module ['а', '=', '1', '.']).tokens.length = 4 := by
    decide +kernel
  rw [hlength] at hkept
  exact ⟨_, _, hstream, hcut, hlength, hkept, by decide +kernel⟩

end Highlight1C
