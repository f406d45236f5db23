import Highlight1C.Proofs.Lexer

/-!
# Texts that are cut off

When a text is cut off behind one of its tokens, a lexer sees less of what
follows the tokens before the cut. `Lexer.CutsAfter` says that this makes no
difference: the events of the text that is left are those up to the token,
and the end of a group that is open there. Some tokens are written only
because of what follows them; the others are settled. `Lexer.Cuttable` states
what is owed, move by move, to cut behind a settled token:

* `Cuttable.within`: a move can be cut behind each settled token it writes;
* `Cuttable.beyond`: a move is the same when the cut is further on;
* `Cuttable.flush`: at the end, one token is written at most.

From this follows that a text can be cut behind every settled token
(`Cuttable.cutsAfter`).
-/

namespace Highlight1C

/-! ## Where a piece stands -/

/-- A piece of two lists put together is one of the second or of the first. -/
theorem append_eq_split {a b before after : List (Piece Lexeme)} {p : Piece Lexeme}
    (h : a ++ b = before ++ p :: after) :
    (∃ between, before = a ++ between ∧ b = between ++ p :: after) ∨
      ∃ rest, a = before ++ p :: rest := by
  rcases List.append_eq_append_iff.mp h with ⟨between, hbefore, hb⟩ | ⟨rest, ha, hrest⟩
  · exact .inl ⟨between, hbefore, hb⟩
  · cases rest with
    | nil => exact .inl ⟨[], by simpa using ha.symm, by simpa using hrest.symm⟩
    | cons q rest =>
      obtain ⟨rfl, -⟩ := List.cons.inj hrest
      exact .inr ⟨rest, ha⟩

theorem singleton_eq_split {p q : Piece Lexeme} {before after : List (Piece Lexeme)}
    (h : [q] = before ++ p :: after) : before = [] ∧ q = p ∧ after = [] := by
  cases before with
  | nil =>
    obtain ⟨rfl, rfl⟩ := List.cons.inj h
    exact ⟨rfl, rfl, rfl⟩
  | cons r before => simp at h

/-! ## Cuts -/

namespace Lexer

variable {σ : Type}

/-- Cut off behind the token `l`, which comes after the pieces `before`, a
text has the events up to the token, and the end of a group that is open
there. -/
def CutsAfter (lx : Lexer σ) (held : σ → List Char) (state : σ) (text : List Char)
    (before : List (Piece Lexeme)) (l : Lexeme) : Prop :=
  ∃ n m, textOf (before ++ [.token l]) = held state ++ text.take n ∧
    (lx.mode state).afterAll? (before ++ [.token l]) = some m ∧
    lx.eventsFrom state (text.take n) = before ++ .token l :: m.closing

/-- What a lexer owes so that a text can be cut behind settled tokens. -/
structure Cuttable (lx : Lexer σ) (held : σ → List Char) (settled : Lexeme → Prop) : Prop where
  /-- The text can be cut behind each settled token that a move writes. -/
  within : ∀ {state c cs move before l after}, lx.step state c cs = some move →
    move.writes = before ++ .token l :: after → settled l →
    lx.CutsAfter held state (c :: cs) before l
  /-- A move is the same on a text that is cut behind a settled token further
  on. -/
  beyond : ∀ {state c cs move before l after n}, lx.step state c cs = some move →
    lx.eventsFrom move.next (cs.drop move.further) = before ++ .token l :: after → settled l →
    textOf (before ++ [.token l]) = held move.next ++ (cs.drop move.further).take n →
    lx.step state c (cs.take (move.further + n)) = some move
  /-- At the end of a text, one token is written at most. -/
  flush : ∀ {state before l after}, lx.flush state = before ++ .token l :: after →
    before = [] ∧ after = []

namespace Lossless

variable {lx : Lexer σ} {held : σ → List Char}

theorem text_ne_nil (h : lx.Lossless held) {state : σ} {text : List Char}
    {before after : List (Piece Lexeme)} {l : Lexeme}
    (he : lx.eventsFrom state text = before ++ .token l :: after) : l.text ≠ [] := by
  refine h.full_eventsFrom state text l ?_
  rw [he]
  exact List.mem_append_right _ List.mem_cons_self

/-- What was held back and is a token of its own can be cut off from what
follows. -/
theorem cutsAfter_held (h : lx.Lossless held) {state : σ} {l : Lexeme} {text : List Char}
    (hl : lx.flush state = [.token l]) : lx.CutsAfter held state text [] l := by
  have htext := h.flush_text state
  have hmode := h.flush_nested state
  rw [hl] at htext hmode
  refine ⟨0, lx.mode state, ?_, hmode, ?_⟩
  · rw [List.take_zero, List.append_nil]
    exact htext
  · rw [List.take_zero, eventsFrom_nil, hl]
    rfl

/-- A text can be cut behind the last token that a move writes, if the move
that is made there, where the text now ends, writes the same and holds back
nothing. -/
theorem cutsAfter_move (h : lx.Lossless held) {state : σ} {c : Char} {cs : List Char}
    {move : Move σ} {before after : List (Piece Lexeme)} {l : Lexeme}
    (hs : lx.step state c (cs.take move.further) = some move) (hflush : lx.flush move.next = [])
    (hw : move.writes = before ++ .token l :: after) (hafter : after = [] ∨ after = [.endGroup]) :
    lx.CutsAfter held state (c :: cs) before l := by
  obtain ⟨_, hs', hk⟩ := h.step state c (cs.take move.further)
  cases hs.symm.trans hs'
  have hheld : held move.next = [] := by
    rw [← h.flush_text, hflush]
    rfl
  have hevents : lx.eventsFrom state (c :: cs.take move.further) =
      before ++ .token l :: (after ++ (lx.mode move.next).closing) := by
    have hdrop : (cs.take move.further).drop move.further = [] := by
      rw [List.drop_eq_nil_iff, List.length_take]
      exact Nat.min_le_left _ _
    rw [lx.eventsFrom_cons hs, hdrop, eventsFrom_nil, hflush, hw]
    simp
  have hsplit : before ++ .token l :: after = (before ++ [.token l]) ++ after := by simp
  have htext := hk.text
  have hnested := hk.nested
  rw [hw, hsplit, hheld, List.append_nil, List.take_take, Nat.min_self, textOf_append] at htext
  rw [hw, hsplit, Mode.afterAll?_append, Option.bind_eq_some_iff] at hnested
  obtain ⟨m, hm, hrest⟩ := hnested
  refine ⟨move.further + 1, m, ?_, hm, ?_⟩
  · rcases hafter with rfl | rfl
    · simpa using htext
    · simpa using htext
  · rw [List.take_succ_cons, hevents]
    rcases hafter with rfl | rfl
    · cases hrest
      rfl
    · -- the group that the move closes is the one that is open behind the token
      cases m with
      | initial => cases hrest
      | inString =>
        have hmode : lx.mode move.next = .initial := (Option.some.inj hrest).symm
        rw [hmode]
        rfl

/-- A text whose first move is the same when the text is cut can be cut behind
a token further on, if the rest can. -/
theorem cutsAfter_beyond (h : lx.Lossless held) {state : σ} {c : Char} {cs : List Char}
    {move : Move σ} {before : List (Piece Lexeme)} {l : Lexeme}
    (hs : lx.step state c cs = some move)
    (hstep : ∀ n, textOf (before ++ [.token l]) = held move.next ++ (cs.drop move.further).take n →
      lx.step state c (cs.take (move.further + n)) = some move)
    (hrest : lx.CutsAfter held move.next (cs.drop move.further) before l) :
    lx.CutsAfter held state (c :: cs) (move.writes ++ before) l := by
  obtain ⟨_, hs', hk⟩ := h.step state c cs
  cases hs.symm.trans hs'
  obtain ⟨n, m, htext, hmode, hevents⟩ := hrest
  refine ⟨move.further + n + 1, m, ?_, ?_, ?_⟩
  · rw [List.append_assoc, textOf_append, htext, ← List.append_assoc, hk.text, List.take_succ_cons,
      List.take_add]
    simp
  · rw [List.append_assoc, Mode.afterAll?_append, hk.nested]
    exact hmode
  · have hdrop : (cs.take (move.further + n)).drop move.further = (cs.drop move.further).take n := by
      rw [List.drop_take, Nat.add_sub_cancel_left]
    rw [List.take_succ_cons, lx.eventsFrom_cons (hstep n htext), hdrop, hevents, List.append_assoc]

end Lossless

/-- A text can be cut behind every settled token. -/
theorem Cuttable.cutsAfter {lx : Lexer σ} {held : σ → List Char} {settled : Lexeme → Prop}
    (hc : lx.Cuttable held settled) (h : lx.Lossless held) {state : σ} {text : List Char}
    {before after : List (Piece Lexeme)} {l : Lexeme}
    (he : lx.eventsFrom state text = before ++ .token l :: after) (hl : settled l) :
    lx.CutsAfter held state text before l := by
  induction state, text using h.induction generalizing before with
  | nil state =>
    rw [eventsFrom_nil] at he
    rcases append_eq_split he with ⟨between, -, hclosing⟩ | ⟨rest, hflush⟩
    · have hmem : .token l ∈ (lx.mode state).closing := by rw [hclosing]; simp
      exact absurd hmem (Mode.not_token_mem_closing _ _)
    · obtain ⟨rfl, rfl⟩ := hc.flush hflush
      exact h.cutsAfter_held hflush
  | cons state c cs move hs _ ih =>
    rw [lx.eventsFrom_cons hs] at he
    rcases append_eq_split he with ⟨between, rfl, hrest⟩ | ⟨rest, hwrites⟩
    · exact h.cutsAfter_beyond hs (fun n hn => hc.beyond hs hrest hl hn) (ih hrest)
    · exact hc.within hs hwrites hl

end Lexer

end Highlight1C
