import Highlight1C.Proofs.Figures

/-!
# What the check of a stream says

The check of a stream looks for the first violation. `TokenStream.WellFormed` says
without a search what it is that has no violation: no text is empty and the texts
make up the source, the markers open and close groups by turns, parts of strings
stand within groups, and every token starts where the bytes of those before it end
and covers its own. Each of the three searches comes out empty exactly when its part
of this holds (`lossFrom_eq_none_iff`, `nestingFrom_eq_none_iff`,
`placingFrom_eq_none_iff`), so a stream whose spans do not run backwards passes its
check exactly when it is well formed (`validate_iff`).

The search through the texts keeps the rest of the source. One that keeps the number
of bytes passed instead has to cut the source there; `lossAt_eq` says that this cut
never falls within a character, whatever the texts are.
-/

namespace Highlight1C

open Text

/-! ## Markers -/

/-- Whether a piece is a marker. -/
def Piece.isMarker {τ : Type} (p : Piece τ) : Bool :=
  p.token?.isNone

/-- The markers among pieces, in order. -/
def markersOf (ps : List (Piece Token)) : List (Piece Token) :=
  ps.filter Piece.isMarker

@[simp] theorem markersOf_nil : markersOf [] = [] := rfl

@[simp] theorem markersOf_token (t : Token) (ps : List (Piece Token)) :
    markersOf (.token t :: ps) = markersOf ps := rfl

@[simp] theorem markersOf_beginGroup (ps : List (Piece Token)) :
    markersOf (.beginGroup :: ps) = .beginGroup :: markersOf ps := rfl

@[simp] theorem markersOf_endGroup (ps : List (Piece Token)) :
    markersOf (.endGroup :: ps) = .endGroup :: markersOf ps := rfl

/-- Markers open and close a group by turns: they are a number of pairs, maybe
none. -/
def Alternating (markers : List (Piece Token)) : Prop :=
  ∃ n, markers = (List.replicate n [.beginGroup, .endGroup]).flatten

theorem alternating_nil : Alternating [] := ⟨0, rfl⟩

/-- A marker in front opens a group, and the next one closes it. -/
theorem alternating_cons_iff {p : Piece Token} {markers : List (Piece Token)} :
    Alternating (p :: markers) ↔
      p = .beginGroup ∧ ∃ others, markers = .endGroup :: others ∧ Alternating others := by
  constructor
  · rintro ⟨n, h⟩
    cases n with
    | zero => cases h
    | succ n =>
      rw [List.replicate_succ, List.flatten_cons, List.cons_append, List.cons_append] at h
      obtain ⟨hp, hmarkers⟩ := List.cons.inj h
      exact ⟨hp, _, hmarkers, n, rfl⟩
  · rintro ⟨rfl, others, rfl, n, rfl⟩
    exact ⟨n + 1, rfl⟩

/-! ## Well-formed streams -/

/-- The kinds of the parts of a string. -/
def partKinds : List TokenKind := [.delimiter, .content, .char, .modifier]

theorem mem_partKinds_iff (k : TokenKind) : k ∈ partKinds ↔ k.isStringPart = true := by
  cases k <;> decide

/-- A place among pieces lies between a marker that opens a group and the one that
closes it: the last marker before it opens one, and the first behind it closes
one. -/
structure Enclosed (before after : List (Piece Token)) : Prop where
  opened : (markersOf before).getLast? = some .beginGroup
  closed : (markersOf after).head? = some .endGroup

/-- Groups are opened and closed by turns, and every part of a string lies within
one. -/
structure Nested (ps : List (Piece Token)) : Prop where
  alternating : Alternating (markersOf ps)
  enclosed : ∀ before t after, ps = before ++ .token t :: after → t.kind ∈ partKinds →
    Enclosed before after

/-- A token starts where the bytes of the tokens before it end, and covers its
text. -/
structure Token.Follows (t : Token) (before : List Token) : Prop where
  starts : t.span.start.offset = groupSize before
  covers : t.span.stop.offset = t.span.start.offset + byteLength t.text

namespace TokenStream

/-- A stream is well formed over a source. -/
structure WellFormed (s : TokenStream) (source : List Char) : Prop where
  full : ∀ t ∈ s.tokens, t.text ≠ []
  lossless : s.text = source
  nested : Nested s.pieces
  placed : ∀ before t after, s.tokens = before ++ t :: after → t.Follows before

/-! ## Texts -/

/-- The texts have no flaw exactly when none is empty and they make up the source. -/
theorem lossFrom_eq_none_iff (offset : Nat) (ts : List Token) (source : List Char) :
    lossFrom offset ts source = none ↔
      (∀ t ∈ ts, t.text ≠ []) ∧ ts.flatMap (·.text) = source := by
  induction ts generalizing offset source with
  | nil =>
    cases source with
    | nil => simp [lossFrom]
    | cons c cs => simp [lossFrom]
  | cons t ts ih =>
    rw [lossFrom, List.forall_mem_cons, List.flatMap_cons]
    split
    · next hempty => simp [List.isEmpty_iff.mp hempty]
    next hempty =>
    have hfull : t.text ≠ [] := fun h => hempty (List.isEmpty_iff.mpr h)
    split
    · next hprefix =>
      obtain ⟨rest, rfl⟩ := List.isPrefixOf_iff_prefix.mp hprefix
      rw [List.drop_left, ih, List.append_cancel_left_eq]
      exact ⟨fun h => ⟨⟨hfull, h.1⟩, h.2⟩, fun h => ⟨h.1.2, h.2⟩⟩
    · next hprefix =>
      refine iff_of_false (by simp) fun h => hprefix ?_
      exact List.isPrefixOf_iff_prefix.mpr ⟨_, h.2⟩

/-- The search for a flaw in the texts by byte offsets: in front of each token the
source is cut after the bytes passed, and a cut within a character is a fault. -/
def lossAt (source : List Char) (offset : Nat) : List Token → Except Fault (Option Violation)
  | [] =>
    .ok (if offset = byteLength source then none else some (.uncovered offset (byteLength source)))
  | t :: ts =>
    if t.text.isEmpty then .ok (some (.emptyToken t.kind offset))
    else match cut? offset source with
    | none => .error .badCut
    | some (_, rest) =>
      if t.text.isPrefixOf rest then lossAt source (offset + byteLength t.text) ts
      else .ok (some (.mismatch t.toLexeme offset))

theorem lossAt_append (passed rest : List Char) (ts : List Token) :
    lossAt (passed ++ rest) (byteLength passed) ts = .ok (lossFrom (byteLength passed) ts rest) := by
  induction ts generalizing passed rest with
  | nil =>
    cases rest with
    | nil => simp [lossAt, lossFrom]
    | cons c cs =>
      have hpos := c.utf8Size_pos
      rw [lossAt, byteLength_append, byteLength_cons, if_neg (by omega), lossFrom, byteLength_cons]
  | cons t ts ih =>
    rw [lossAt, lossFrom]
    split
    · rfl
    rw [cut?_append]
    simp only []
    split
    · next hprefix =>
      obtain ⟨rest, rfl⟩ := List.isPrefixOf_iff_prefix.mp hprefix
      have ih := ih (passed ++ t.text) rest
      rw [List.append_assoc, byteLength_append] at ih
      rw [ih, List.drop_left]
    · rfl

/-- The cuts of the search by offsets fall between characters, and it finds the same
flaw. -/
theorem lossAt_eq (s : TokenStream) (source : List Char) :
    lossAt source 0 s.tokens = .ok (s.loss? source) :=
  lossAt_append [] source s.tokens

end TokenStream

/-! ## Groups -/

namespace Nested

variable {t : Token} {ps : List (Piece Token)}

theorem nil : Nested [] where
  alternating := alternating_nil
  enclosed before t after h := by
    cases before <;> cases h

theorem not_open : ¬ Nested [.beginGroup] := by
  intro h
  obtain ⟨-, others, hothers, -⟩ := alternating_cons_iff.mp h.alternating
  cases hothers

theorem not_reopened : ¬ Nested (.beginGroup :: .beginGroup :: ps) := by
  intro h
  obtain ⟨-, others, hothers, -⟩ := alternating_cons_iff.mp h.alternating
  cases hothers

theorem not_unopened : ¬ Nested (.endGroup :: ps) := by
  intro h
  obtain ⟨hopens, -⟩ := alternating_cons_iff.mp h.alternating
  cases hopens

/-- Outside groups, a token may stand that is no part of a string. -/
theorem token_iff : Nested (.token t :: ps) ↔ t.kind ∉ partKinds ∧ Nested ps := by
  constructor
  · intro h
    refine ⟨fun hpart => ?_, h.alternating, fun before u after hsplit hpart => ?_⟩
    · cases (h.enclosed [] t ps rfl hpart).opened
    · have henclosed := h.enclosed (.token t :: before) u after (by rw [hsplit]; rfl) hpart
      exact ⟨henclosed.opened, henclosed.closed⟩
  · rintro ⟨hnone, h⟩
    refine ⟨h.alternating, fun before u after hsplit hpart => ?_⟩
    cases before with
    | nil =>
      cases hsplit
      exact absurd hpart hnone
    | cons p before =>
      cases hsplit
      have henclosed := h.enclosed before u after rfl hpart
      exact ⟨henclosed.opened, henclosed.closed⟩

/-- Within a group, any token may stand. -/
theorem inside_token_iff : Nested (.beginGroup :: .token t :: ps) ↔ Nested (.beginGroup :: ps) := by
  constructor
  · intro h
    refine ⟨h.alternating, fun before u after hsplit hpart => ?_⟩
    cases before with
    | nil => cases hsplit
    | cons p before =>
      cases hsplit
      have henclosed := h.enclosed (.beginGroup :: .token t :: before) u after rfl hpart
      exact ⟨henclosed.opened, henclosed.closed⟩
  · intro h
    refine ⟨h.alternating, fun before u after hsplit hpart => ?_⟩
    rcases before with _ | ⟨p, _ | ⟨q, before⟩⟩
    · cases hsplit
    · -- what closes the group comes behind the token, since markers alternate
      cases hsplit
      obtain ⟨-, others, hothers, -⟩ := alternating_cons_iff.mp h.alternating
      exact ⟨rfl, congrArg List.head? hothers⟩
    · cases hsplit
      have henclosed := h.enclosed (.beginGroup :: before) u after rfl hpart
      exact ⟨henclosed.opened, henclosed.closed⟩

/-- A group that is closed tells nothing of what comes behind it. -/
theorem group_iff : Nested (.beginGroup :: .endGroup :: ps) ↔ Nested ps := by
  have hmarkers : Alternating (markersOf (.beginGroup :: .endGroup :: ps)) ↔
      Alternating (markersOf ps) := by
    simp [alternating_cons_iff]
  constructor
  · intro h
    refine ⟨hmarkers.mp h.alternating, fun before u after hsplit hpart => ?_⟩
    have henclosed := h.enclosed (.beginGroup :: .endGroup :: before) u after (by rw [hsplit]; rfl) hpart
    refine ⟨?_, henclosed.closed⟩
    have hopened := henclosed.opened
    rw [markersOf_beginGroup, markersOf_endGroup, List.getLast?_cons_cons] at hopened
    cases hbefore : markersOf before with
    | nil =>
      rw [hbefore] at hopened
      cases hopened
    | cons p others => rwa [hbefore, List.getLast?_cons_cons] at hopened
  · intro h
    refine ⟨hmarkers.mpr h.alternating, fun before u after hsplit hpart => ?_⟩
    rcases before with _ | ⟨p, _ | ⟨q, before⟩⟩
    · cases hsplit
    · cases hsplit
    · cases hsplit
      have henclosed := h.enclosed before u after rfl hpart
      refine ⟨?_, henclosed.closed⟩
      rw [markersOf_beginGroup, markersOf_endGroup, List.getLast?_cons_cons, List.getLast?_cons,
        henclosed.opened, Option.getD_some]

end Nested

/-- The marker that has opened the group that is open. -/
def opening (inside : Bool) : List (Piece Token) :=
  if inside then [.beginGroup] else []

/-- Pieces have no flaw in their groups exactly when they are nested, together with
the marker of the group that is open before them. -/
theorem TokenStream.nestingFrom_eq_none_iff (index : Nat) (inside : Bool) (ps : List (Piece Token)) :
    nestingFrom index inside ps = none ↔ Nested (opening inside ++ ps) := by
  induction ps generalizing index inside with
  | nil =>
    cases inside with
    | false => exact iff_of_true rfl .nil
    | true => exact iff_of_false (by simp [nestingFrom]) Nested.not_open
  | cons p ps ih =>
    cases p with
    | token t =>
      have ih := ih (index + 1) inside
      cases inside with
      | false =>
        show _ ↔ Nested (.token t :: ps)
        rw [Nested.token_iff, mem_partKinds_iff, nestingFrom]
        cases t.kind.isStringPart with
        | false => simpa [opening] using ih
        | true => simp
      | true =>
        show _ ↔ Nested (.beginGroup :: .token t :: ps)
        rw [Nested.inside_token_iff, nestingFrom]
        simpa [opening] using ih
    | beginGroup =>
      cases inside with
      | false => exact ih (index + 1) true
      | true => exact iff_of_false (by simp [nestingFrom]) Nested.not_reopened
    | endGroup =>
      cases inside with
      | false => exact iff_of_false (by simp [nestingFrom]) Nested.not_unopened
      | true => exact (ih (index + 1) false).trans Nested.group_iff.symm

/-! ## Places -/

/-- A token stands behind one more token. -/
theorem groupSize_append (before : List Token) (t : Token) :
    groupSize (before ++ [t]) = groupSize before + byteLength t.text := by
  simp [groupSize]

namespace TokenStream

/-- Spans that do not run backwards can be measured, so the search comes to an
end. -/
theorem exists_placingFrom {ts : List Token}
    (h : ∀ t ∈ ts, t.span.start.offset ≤ t.span.stop.offset) (expected : Nat) :
    ∃ found, placingFrom expected ts = .ok found := by
  induction ts generalizing expected with
  | nil => exact ⟨none, rfl⟩
  | cons t ts ih =>
    obtain ⟨ht, hts⟩ := List.forall_mem_cons.mp h
    have hlength : t.span.length = .ok (t.span.stop.offset - t.span.start.offset) := if_pos ht
    obtain ⟨found, hfound⟩ := ih hts t.span.stop.offset
    rw [placingFrom, hlength]
    split
    · exact ⟨_, rfl⟩
    simp only [bind, Except.bind]
    split
    · exact ⟨_, rfl⟩
    · exact ⟨found, hfound⟩

/-- One token in its place, in front of the others. -/
theorem placingFrom_cons_of_follows {t : Token} {ts : List Token} {expected : Nat}
    (hstart : t.span.start.offset = expected)
    (hstop : t.span.stop.offset = t.span.start.offset + byteLength t.text) :
    placingFrom expected (t :: ts) = placingFrom t.span.stop.offset ts := by
  have hlength : t.span.length = .ok (byteLength t.text) := by
    rw [Span.length, if_pos (by omega), hstop, Nat.add_sub_cancel_left]
  rw [placingFrom, hlength]
  simp [hstart, bind, Except.bind]

/-- Spans have no flaw exactly when each token follows those before it, the tokens
`passed` included. -/
theorem placingFrom_eq_none_iff (passed ts : List Token) :
    placingFrom (groupSize passed) ts = .ok none ↔
      ∀ before t after, ts = before ++ t :: after → t.Follows (passed ++ before) := by
  induction ts generalizing passed with
  | nil =>
    refine iff_of_true rfl fun before t after h => ?_
    cases before <;> cases h
  | cons t ts ih =>
    have hsize := groupSize_append passed t
    constructor
    · intro h before u after hsplit
      obtain ⟨hstart, hstop, hrest⟩ := placingFrom_cons h
      rw [hstop, ← hsize, ih] at hrest
      cases before with
      | nil =>
        cases hsplit
        rw [List.append_nil]
        exact ⟨hstart, by omega⟩
      | cons v before =>
        cases hsplit
        have hfollows := hrest before u after rfl
        rwa [List.append_assoc] at hfollows
    · intro h
      have ht : t.Follows passed := by simpa using h [] t ts rfl
      have hstop := ht.covers
      rw [placingFrom_cons_of_follows ht.starts ht.covers, hstop, ht.starts, ← hsize, ih]
      intro before u after hsplit
      have hfollows := h (t :: before) u after (by rw [hsplit]; rfl)
      rwa [List.append_cons] at hfollows

/-! ## The check -/

/-- The check of a stream is sound and complete, for every stream, whoever made it,
and every source, as long as no span runs backwards. It comes to an end without a
fault, and the cuts that a search through the texts by offsets makes fall between
characters (`lossAt`). It finds nothing exactly when the stream is well formed:
no text is empty; the texts make up the source; markers open and close groups by
turns, the last one closing; parts of strings stand between a marker that opens and
the one that closes; and each token starts after the bytes of those before it and
covers the bytes of its text. -/
theorem validate_iff (s : TokenStream) (source : List Char)
    (hspans : ∀ t ∈ s.tokens, t.span.start.offset ≤ t.span.stop.offset) :
    (∃ found, s.validate source = .ok found) ∧
      lossAt source 0 s.tokens = .ok (s.loss? source) ∧
      (s.validate source = .ok none ↔ s.WellFormed source) := by
  obtain ⟨found, hfound⟩ := exists_placingFrom hspans 0
  have hloss : s.loss? source = none ↔ (∀ t ∈ s.tokens, t.text ≠ []) ∧ s.text = source :=
    lossFrom_eq_none_iff 0 s.tokens source
  have hnesting : s.nesting? = none ↔ Nested s.pieces := nestingFrom_eq_none_iff 0 false s.pieces
  have hplacing : s.placing? = .ok none ↔
      ∀ before t after, s.tokens = before ++ t :: after → t.Follows before :=
    placingFrom_eq_none_iff [] s.tokens
  refine ⟨?_, lossAt_eq s source, ?_, fun h => ?_⟩
  · rw [validate]
    split
    · exact ⟨_, rfl⟩
    split
    · exact ⟨_, rfl⟩
    · exact ⟨found, hfound⟩
  · rw [validate]
    split
    · intro h
      cases h
    next hnone =>
    split
    · intro h
      cases h
    next hnested =>
    intro hplaced
    obtain ⟨hfull, htext⟩ := hloss.mp hnone
    exact ⟨hfull, htext, hnesting.mp hnested, hplacing.mp hplaced⟩
  · rw [validate, hloss.mpr ⟨h.full, h.lossless⟩, hnesting.mpr h.nested]
    exact hplacing.mpr h.placed

/-- A token in no line, between two byte offsets. -/
def bytesToken (kind : TokenKind) (text : List Char) (start stop : Nat) : Piece Token :=
  .token ⟨⟨kind, text⟩, ⟨⟨start, 0, 0⟩, ⟨stop, 0, 0⟩⟩⟩

/-- A stream over `ж="ё"`, a name that is set to a string, with the markers `closing`
behind the string and its content said to end at byte `stop`. -/
def settingStream (closing : List (Piece Token)) (stop : Nat) : TokenStream :=
  ⟨[bytesToken .ident ['ж'] 0 2, bytesToken .operator ['='] 2 3, .beginGroup,
    bytesToken .delimiter ['\x22'] 3 4, bytesToken .content ['ё'] 4 stop,
    bytesToken .delimiter ['\x22'] 6 7] ++ closing⟩

/-- The stream is well formed with one marker behind the string, whatever line its tokens
are said to be in. Without that marker it is not, nor with a second one, nor if its
content is said to end within its letter. -/
theorem validate_iff_setting :
    let source := ['ж', '=', '\x22', 'ё', '\x22']
    (∀ t ∈ (settingStream [.endGroup] 6).tokens, t.span.start.offset ≤ t.span.stop.offset) ∧
      (settingStream [.endGroup] 6).WellFormed source ∧
      ¬ (settingStream [] 6).WellFormed source ∧
      ¬ (settingStream [.endGroup, .endGroup] 6).WellFormed source ∧
      ¬ (settingStream [.endGroup] 5).WellFormed source := by
  intro source
  have hforward : ∀ t ∈ (settingStream [.endGroup] 6).tokens,
      t.span.start.offset ≤ t.span.stop.offset := by decide
  obtain ⟨-, -, hformed⟩ := validate_iff (settingStream [.endGroup] 6) source hforward
  obtain ⟨-, -, hopen⟩ := validate_iff (settingStream [] 6) source (by decide)
  obtain ⟨-, -, htwice⟩ :=
    validate_iff (settingStream [.endGroup, .endGroup] 6) source (by decide)
  obtain ⟨-, -, hshort⟩ := validate_iff (settingStream [.endGroup] 5) source (by decide)
  have hunclosed : (settingStream [] 6).validate source = .ok (some .unclosed) := rfl
  have hunopened : (settingStream [.endGroup, .endGroup] 6).validate source =
      .ok (some (.unopened 7)) := rfl
  have hmeasure : (settingStream [.endGroup] 5).validate source =
      .ok (some (.mismeasured ⟨.content, ['ё']⟩ 1 2)) := rfl
  refine ⟨hforward, hformed.mp rfl, fun h => ?_, fun h => ?_, fun h => ?_⟩
  · cases hunclosed.symm.trans (hopen.mpr h)
  · cases hunopened.symm.trans (htwice.mpr h)
  · cases hmeasure.symm.trans (hshort.mpr h)

end TokenStream

end Highlight1C
