import Highlight1C.Proofs.Pieces
import Highlight1C.Token.Listing

/-!
# Listings can be read back

A listing writes layout as it is, without its kind, so not every list of
pieces can be told from its listing: nothing shows where one token of layout
ends and the next one begins. The tokens of layout that a lexer writes are of
two forms, which `IsLayout` names: a line continuation, which has two
characters, or a run that goes as far as it can (`Language.isLayout`). The
first of such pieces (`Listable`) can be read off a listing
(`unlistFirst?_listed`), and so all of them (`unlist?_listed`). Sources with
the same listing are therefore equal, and so are their pieces
(`listing_injective`).
-/

namespace Highlight1C

open Text

/-! ## Layout -/

/-- A token of layout in front of a text: a line continuation, or a run of
layout that the text does not continue. -/
def IsLayout (text rest : List Char) : Prop :=
  text = ['\\', '\n'] ∨
    text ≠ [] ∧ (∀ c ∈ text, isSpace c = true) ∧ ∀ c, rest.head? = some c → isSpace c = false

/-- A run of layout goes as far as it can. -/
theorem isLayout_run {c : Char} {cs : List Char} (hc : isSpace c = true) :
    IsLayout (c :: cs.takeWhile isSpace) (cs.drop (cs.takeWhile isSpace).length) := by
  refine .inr ⟨List.cons_ne_nil _ _, ?_, fun d hd => not_of_head?_drop_takeWhile hd⟩
  intro d hd
  rcases List.mem_cons.mp hd with rfl | hd
  · exact hc
  · exact List.all_eq_true.mp List.all_takeWhile d hd

/-- A move that writes the token of layout `l`: it writes nothing else, and
holds back nothing. -/
structure Move.IsLayout {σ : Type} (move : Move σ) (held : σ → List Char) (cs : List Char)
    (l : Lexeme) : Prop where
  writes : move.writes = [.token l]
  held : held move.next = []
  layout : Highlight1C.IsLayout l.text (cs.drop move.further)

theorem ModuleLexer.isLayout_of_step {state : State} {c : Char} {cs : List Char}
    {move : Move State} (hs : lexer.step state c cs = some move) {l : Lexeme}
    (hl : .token l ∈ move.writes) (hkind : l.kind = .space) : move.IsLayout held cs l := by
  cases state with
  | code nameFollows =>
    -- only the rule for layout writes that kind; for words the word lists say so
    cases codeRule_of_step hs with
    | space hc =>
      cases List.mem_singleton.mp hl
      exact ⟨rfl, rfl, isLayout_run hc⟩
    | word =>
      cases List.mem_singleton.mp hl
      dsimp only at hkind
      split at hkind
      · cases hkind
      · exact absurd hkind (ModuleWords.kinds_class _ (ModuleWords.classify_mem_kinds _)).2
    | opening => simp at hl; cases hl; cases hkind
    | _ => cases List.mem_singleton.mp hl; cases hkind
  | string =>
    cases stringRule_of_step hs with
    | closing => simp at hl; cases hl; cases hkind
    | _ => cases List.mem_singleton.mp hl; cases hkind

namespace QueryLexer

theorem isLayout_of_step {state : State} {c : Char} {cs : List Char} {move : Move State}
    (hs : lexer.step state c cs = some move) {l : Lexeme} (hl : .token l ∈ move.writes)
    (hkind : l.kind = .space) : move.IsLayout held cs l := by
  cases state with
  | code nameExpected =>
    cases codeRule_of_step hs with
    | space hc =>
      cases List.mem_singleton.mp hl
      exact ⟨rfl, rfl, isLayout_run hc⟩
    | continuation hc _ =>
      cases List.mem_singleton.mp hl
      exact ⟨rfl, rfl, .inl (hc ▸ rfl)⟩
    | blockComment h =>
      cases List.mem_singleton.mp hl
      rcases blockComment?_kind h with rfl | rfl <;> cases hkind
    | word =>
      cases List.mem_singleton.mp hl
      exact absurd hkind (wordKind_class _ _).2.1
    | decimal _ _ _ h =>
      cases List.mem_singleton.mp hl
      obtain ⟨-, rfl | rfl⟩ := decimalTail?_isPrefix h <;> cases hkind
    | opening =>
      have hpart := part_of_mem_openingMove hl
      rw [hkind] at hpart
      cases hpart
    | _ => cases List.mem_singleton.mp hl; cases hkind
  | string nameExpected quote held =>
    cases stringRule_of_step hs with
    | closing | escape | broken =>
      rcases List.mem_append.mp hl with hl | hl
      · exact absurd hl (not_mem_release (by rw [hkind]; rfl))
      · simp at hl; cases hl; cases hkind
    | _ => cases hl

end QueryLexer

namespace Language

theorem isLayout_of_step : {language : Language} → {state : language.State} → {c : Char} →
    {cs : List Char} → {move : Move language.State} →
    language.lexer.step state c cs = some move → {l : Lexeme} → .token l ∈ move.writes →
    l.kind = .space → move.IsLayout language.held cs l
  | .module => ModuleLexer.isLayout_of_step
  | .query => QueryLexer.isLayout_of_step

theorem not_space_mem_flush : (language : Language) → (state : language.State) → {l : Lexeme} →
    l.kind = .space → .token l ∉ language.lexer.flush state
  | .module, _, _, _ => List.not_mem_nil
  | .query, .code _, _, _ => List.not_mem_nil
  | .query, .string _ _ _, _, hkind => QueryLexer.not_mem_release (by rw [hkind]; rfl)

/-- The tokens of layout that a lexer writes. -/
theorem isLayout {language : Language} {source : List Char} {before after : List (Piece Lexeme)}
    {l : Lexeme} (he : language.events source = before ++ .token l :: after)
    (hkind : l.kind = .space) : IsLayout l.text (textOf after) := by
  cases language.lossless.writes he with
  | @move _ first last _ _ _ move _ hs hw _ ha =>
    have hl : .token l ∈ move.writes := by rw [hw]; simp
    have hmove := isLayout_of_step hs hl hkind
    obtain ⟨-, -, rfl⟩ := singleton_eq_split (hmove.writes.symm.trans hw)
    rw [ha, List.nil_append, language.lossless.textOf_eventsFrom, hmove.held, List.nil_append]
    exact hmove.layout
  | @finish _ first state _ hw =>
    have hl : .token l ∈ language.lexer.flush state ++ (language.lexer.mode state).closing := by
      rw [hw]; simp
    rcases List.mem_append.mp hl with hl | hl
    · exact absurd hl (language.not_space_mem_flush state hkind)
    · exact absurd hl (Mode.not_token_mem_closing _ _)

end Language

/-! ## Listings of bare pieces -/

/-- How a bare piece is listed. -/
def Piece.bareListed : Piece Lexeme → List Char
  | .token l => l.listed
  | .beginGroup => groupName.toList ++ ['<']
  | .endGroup => ['>']

/-- The places of its tokens do not matter for a stream's listing. -/
theorem TokenStream.listing_eq (s : TokenStream) : s.listing = s.bare.flatMap Piece.bareListed := by
  unfold listing bare
  rw [List.flatMap_map]
  congr 1
  funext p
  cases p <;> rfl

/-- Pieces that can be told from their listing: each token of layout has one
of the two forms, in front of what comes after it. -/
def Listable (ps : List (Piece Lexeme)) : Prop :=
  ∀ before l after, ps = before ++ .token l :: after → l.kind = .space →
    IsLayout l.text (textOf after)

theorem Language.listable_events (language : Language) (source : List Char) :
    Listable (language.events source) :=
  fun _ _ _ he hkind => isLayout he hkind

theorem Listable.tail {p : Piece Lexeme} {ps : List (Piece Lexeme)} (h : Listable (p :: ps)) :
    Listable ps :=
  fun before l after he => h (p :: before) l after (by rw [he, List.cons_append])

theorem Listable.head {l : Lexeme} {ps : List (Piece Lexeme)} (h : Listable (.token l :: ps))
    (hkind : l.kind = .space) : IsLayout l.text (textOf ps) :=
  h [] l ps rfl hkind

/-- The characters that names of kinds and groups are made of. -/
def isKindChar (c : Char) : Bool := c.isLower || c == '_'

theorem TokenKind.all_name (k : TokenKind) : ∀ c ∈ k.name.toList, isKindChar c = true := by
  have h : k.name.toList.all isKindChar = true := by cases k <;> decide
  exact List.all_eq_true.mp h

/-- No name of a kind is empty, and its first character is neither layout nor
a mark. -/
theorem TokenKind.exists_name (k : TokenKind) :
    ∃ c cs, k.name.toList = c :: cs ∧ isSpace c = false ∧ c ≠ '>' ∧ c ≠ '\\' := by
  cases k <;> exact ⟨_, _, rfl, rfl, by decide, by decide⟩

/-- Behind a run of layout, a listing does not go on with layout. -/
theorem Listable.not_isSpace {ps : List (Piece Lexeme)} (h : Listable ps)
    (hps : ∀ c, (textOf ps).head? = some c → isSpace c = false) {c : Char}
    (hc : (ps.flatMap Piece.bareListed).head? = some c) : isSpace c = false := by
  cases ps with
  | nil => cases hc
  | cons p ps =>
    rw [List.flatMap_cons] at hc
    cases p with
    | token l =>
      by_cases hkind : l.kind = .space
      · -- layout is listed as it is, so the listing begins as the text does
        obtain ⟨d, ds, htext⟩ : ∃ d ds, l.text = d :: ds := by
          rcases h.head hkind with ht | ⟨ht, -⟩
          · exact ⟨_, _, ht⟩
          · exact List.exists_cons_of_ne_nil ht
        have hlisted : Piece.bareListed (.token l) = d :: ds := by
          simp [Piece.bareListed, Lexeme.listed, hkind, htext]
        rw [hlisted] at hc
        exact hps c (by rw [textOf_token, htext]; exact hc)
      · obtain ⟨d, ds, hname, hd, -⟩ := l.kind.exists_name
        have hlisted : Piece.bareListed (.token l) = d :: ds ++ '(' :: escapeListed l.text ++ [')'] := by
          simp [Piece.bareListed, Lexeme.listed, hkind, hname]
        rw [hlisted] at hc
        cases hc
        exact hd
    | beginGroup => cases hc; rfl
    | endGroup => cases hc; rfl

/-! ## Reading a listing -/

/-- The text in front of the closing parenthesis, without the backslashes
before parentheses and backslashes, and what comes behind the parenthesis. -/
def unescape? : List Char → Option (List Char × List Char)
  | [] => none
  | ')' :: rest => some ([], rest)
  | '\\' :: c :: rest => (unescape? rest).map fun (text, rest) => (c :: text, rest)
  | c :: rest => (unescape? rest).map fun (text, rest) => (c :: text, rest)

theorem unescape?_cons {c : Char} (hparen : c ≠ ')') (hback : c ≠ '\\') (rest : List Char) :
    unescape? (c :: rest) = (unescape? rest).map fun (text, rest) => (c :: text, rest) := by
  rw [unescape?]
  · exact hparen
  · exact fun _ _ h _ => hback h

theorem unescape?_escapeListed (text rest : List Char) :
    unescape? (escapeListed text ++ ')' :: rest) = some (text, rest) := by
  induction text with
  | nil => rfl
  | cons c text ih =>
    unfold escapeListed at ih ⊢
    rw [List.flatMap_cons, List.append_assoc]
    by_cases hc : c = ')' ∨ c = '\\'
    · have hpair : (c == ')' || c == '\\') = true := by simpa using hc
      simp only [hpair, if_true, List.cons_append, List.nil_append, unescape?, ih, Option.map_some]
    · have hsingle : (c == ')' || c == '\\') = false := by simpa using hc
      simp only [not_or] at hc
      simp only [hsingle, Bool.false_eq_true, if_false, List.cons_append, List.nil_append]
      rw [unescape?_cons hc.1 hc.2, ih, Option.map_some]

/-- The first piece of a listing, and the listing of the others. -/
def unlistFirst? : List Char → Option (Piece Lexeme × List Char)
  | [] => none
  | c :: rest =>
    if c = '>' then some (.endGroup, rest)
    else if c = '\\' then some (.token ⟨.space, c :: rest.take 1⟩, rest.drop 1)
    else if isSpace c then
      some (.token ⟨.space, c :: rest.takeWhile isSpace⟩, rest.drop (rest.takeWhile isSpace).length)
    else
      let name := (c :: rest).takeWhile isKindChar
      match (c :: rest).drop name.length with
      | '<' :: rest => some (.beginGroup, rest)
      | '(' :: rest => do
        let kind ← TokenKind.ofName? (String.ofList name)
        let (text, rest) ← unescape? rest
        return (.token ⟨kind, text⟩, rest)
      | _ => none

/-- A run of layout is read off a listing that does not continue it. -/
theorem unlistFirst?_run {c : Char} {cs rest : List Char}
    (hall : ∀ d ∈ c :: cs, isSpace d = true) (hrest : ∀ d, rest.head? = some d → isSpace d = false) :
    unlistFirst? (c :: cs ++ rest) = some (.token ⟨.space, c :: cs⟩, rest) := by
  have hc : isSpace c = true := hall c List.mem_cons_self
  have hclose : c ≠ '>' := by rintro rfl; cases hc
  have hback : c ≠ '\\' := by rintro rfl; cases hc
  have hrun : (cs ++ rest).takeWhile isSpace = cs :=
    takeWhile_append_of_stop (fun d hd => hall d (List.mem_cons_of_mem _ hd)) hrest
  simp only [List.cons_append, unlistFirst?]
  rw [if_neg hclose, if_neg hback, if_pos hc, hrun, List.drop_left]

/-- A token that is not layout is read off a listing. -/
theorem unlistFirst?_token (kind : TokenKind) (text rest : List Char) :
    unlistFirst? (kind.name.toList ++ '(' :: escapeListed text ++ ')' :: rest) =
      some (.token ⟨kind, text⟩, rest) := by
  obtain ⟨c, cs, hname, hspace, hclose, hback⟩ := kind.exists_name
  have htake : (kind.name.toList ++ '(' :: (escapeListed text ++ ')' :: rest)).takeWhile isKindChar =
      kind.name.toList :=
    takeWhile_append_of_stop kind.all_name fun d hd => by cases hd; rfl
  have hread : TokenKind.ofName? (String.ofList kind.name.toList) = some kind := by
    rw [String.ofList_toList, TokenKind.ofName?_name]
  have hdrop : (kind.name.toList ++ '(' :: (escapeListed text ++ ')' :: rest)).drop
      kind.name.toList.length = '(' :: (escapeListed text ++ ')' :: rest) := List.drop_left
  rw [List.append_assoc, List.cons_append]
  generalize hlisting : kind.name.toList ++ '(' :: (escapeListed text ++ ')' :: rest) = listing at *
  rw [hname, List.cons_append] at hlisting
  subst hlisting
  simp only [unlistFirst?]
  rw [if_neg hclose, if_neg hback, if_neg (by rw [hspace]; decide), htake, hdrop]
  simp only [hread, unescape?_escapeListed]
  rfl

/-- The first piece of a listing can be read off it, if a run of layout goes
as far as it can. -/
theorem unlistFirst?_listed {p : Piece Lexeme} {rest : List Char}
    (h : ∀ l, p = .token l → l.kind = .space → IsLayout l.text rest) :
    unlistFirst? (p.bareListed ++ rest) = some (p, rest) := by
  cases p with
  | beginGroup => rfl
  | endGroup => rfl
  | token l =>
    obtain ⟨kind, text⟩ := l
    by_cases hkind : kind = .space
    · subst hkind
      rcases h _ rfl rfl with htext | ⟨hne, hall, hrest⟩
      · dsimp only at htext
        subst htext
        rfl
      · obtain ⟨c, cs, rfl⟩ := List.exists_cons_of_ne_nil hne
        exact unlistFirst?_run hall hrest
    · have hlisted : Piece.bareListed (.token ⟨kind, text⟩) =
          kind.name.toList ++ '(' :: escapeListed text ++ [')'] := if_neg hkind
      rw [hlisted, List.append_assoc, List.singleton_append]
      exact unlistFirst?_token kind text rest

/-- The pieces of a listing. -/
def unlist? (listing : List Char) : Option (List (Piece Lexeme)) :=
  if listing = [] then some []
  else match unlistFirst? listing with
  | none => none
  | some (p, rest) => if rest.length < listing.length then (unlist? rest).map (p :: ·) else none
termination_by listing.length

theorem bareListed_ne_nil {p : Piece Lexeme}
    (h : ∀ l, p = .token l → l.kind = .space → l.text ≠ []) : p.bareListed ≠ [] := by
  cases p with
  | beginGroup => exact List.cons_ne_nil _ _
  | endGroup => exact List.cons_ne_nil _ _
  | token l =>
    show l.listed ≠ []
    unfold Lexeme.listed
    split
    · next hkind => exact h l rfl hkind
    · simp

/-- Pieces can be read back from their listing. -/
theorem unlist?_listed {ps : List (Piece Lexeme)} (h : Listable ps) :
    unlist? (ps.flatMap Piece.bareListed) = some ps := by
  induction ps with
  | nil =>
    rw [List.flatMap_nil, unlist?, if_pos rfl]
  | cons p ps ih =>
    have hlayout (l : Lexeme) (hp : p = .token l) (hkind : l.kind = .space) :
        IsLayout l.text (ps.flatMap Piece.bareListed) := by
      subst hp
      refine (h.head hkind).imp_right fun ⟨hne, hall, hstop⟩ => ⟨hne, hall, fun c hc => ?_⟩
      exact h.tail.not_isSpace hstop hc
    have hne : p.bareListed ≠ [] := bareListed_ne_nil fun l hp hkind => by
      rcases hlayout l hp hkind with htext | ⟨hne, -⟩
      · rw [htext]; exact List.cons_ne_nil _ _
      · exact hne
    have hlen : (ps.flatMap Piece.bareListed).length <
        (p.bareListed ++ ps.flatMap Piece.bareListed).length := by
      have := List.length_pos_iff.mpr hne
      rw [List.length_append]
      omega
    rw [List.flatMap_cons, unlist?, if_neg (List.append_ne_nil_of_left_ne_nil hne _),
      unlistFirst?_listed hlayout]
    simp only []
    rw [if_pos hlen, ih h.tail, Option.map_some]

/-- Listings tell sources apart: if the streams of two sources of at most
2³² − 2 characters have the same listing, they are made of the same tokens,
with the same markers in the same places, and the sources are equal. -/
theorem listing_injective (language : Language) (source₁ source₂ : List Char)
    (hsize₁ : source₁.length ≤ sourceBound) (hsize₂ : source₂.length ≤ sourceBound) :
    ∃ stream₁ stream₂, tokenize language source₁ = .ok (.ok stream₁) ∧
      tokenize language source₂ = .ok (.ok stream₂) ∧
      (stream₁.listing = stream₂.listing → stream₁.bare = stream₂.bare ∧ source₁ = source₂) := by
  refine ⟨_, _, tokenize_eq hsize₁, tokenize_eq hsize₂, fun h => ?_⟩
  rw [TokenStream.listing_eq, TokenStream.listing_eq, language.bare_stream, language.bare_stream] at h
  have hread := unlist?_listed (language.listable_events source₁)
  rw [h, unlist?_listed (language.listable_events source₂)] at hread
  have hevents : language.events source₁ = language.events source₂ := (Option.some.inj hread).symm
  refine ⟨by rw [language.bare_stream, language.bare_stream, hevents], ?_⟩
  rw [← language.textOf_events source₁, hevents, language.textOf_events]

/-- A blank and a line continuation are listed in the order in which they
come. -/
theorem listing_injective_continuation :
    ∃ stream₁ stream₂, tokenize .query [' ', '\\', '\n'] = .ok (.ok stream₁) ∧
      tokenize .query ['\\', '\n', ' '] = .ok (.ok stream₂) ∧
      stream₁.listing ≠ stream₂.listing := by
  obtain ⟨stream₁, stream₂, h₁, h₂, h⟩ :=
    listing_injective .query [' ', '\\', '\n'] ['\\', '\n', ' '] (by decide) (by decide)
  exact ⟨stream₁, stream₂, h₁, h₂, fun he => absurd (h he).2 (by decide)⟩

end Highlight1C
