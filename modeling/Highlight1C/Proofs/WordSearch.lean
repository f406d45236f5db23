import Highlight1C.Proofs.QueryGrammar

/-!
# Looking up the words of queries

The words of queries stand in seven lists, some of them in more than one. They
are entered into one lexicon, each where it comes first, so that looking a word
up comes to searching the lists in their order (`QueryWords.classify_searches`).
The list of constants is never decisive, as all its words are keywords. So the
constant `\N`, which is no word, is the only one that a query can have, whatever
its length (`QueryLexer.constant_of_events`).
-/

namespace Highlight1C

open Text

namespace QueryLexer

theorem Form.eq_nullConstant {l : Lexeme} {rest : List Char} (h : Form l rest)
    (hkind : l.kind = .predefinedConstant) : l = nullConstant := by
  have hwords : ∀ kind ∈ wordKinds, kind ≠ .predefinedConstant := by decide
  have hnumbers : ∀ kind ∈ numberKinds, kind ≠ .predefinedConstant := by decide
  cases h with
  | constant => rfl
  | block hwhich =>
    rcases hwhich with rfl | rfl
    · cases hkind
    · cases hkind
  | number hnumber => exact absurd hkind (hnumbers _ hnumber)
  | word hword => exact absurd hkind (hwords _ hword)
  | part hpart =>
    rw [hkind] at hpart
    cases hpart
  | _ => cases hkind

/-- A constant that is written about a query is `\N`. -/
theorem constant_of_events {source : List Char} {l : Lexeme}
    (h : .token l ∈ Language.query.events source) (hkind : l.kind = .predefinedConstant) :
    l = nullConstant := by
  obtain ⟨before, after, hsplit⟩ := List.append_of_mem h
  exact (form_of_events hsplit).eq_nullConstant hkind

end QueryLexer

/-- A word of a query has the kind of the first list, in the order of the lists,
that has it in letters of any case, and is a name if no list has it. It never is
a constant. In a source of any length, the only constant that is written, and the
only one in the stream if the scan comes to its end, is `\N`. -/
theorem QueryWords.classify_searches :
    (∀ word, classify word =
      ((tables.find? fun table => table.1.any fun listed =>
        lower listed.toList == lower word).map (·.2)).getD .ident) ∧
    (∀ word, classify word ≠ .predefinedConstant) ∧
    ∀ source,
      (∀ l, .token l ∈ (Language.query.read source).pieces → l.kind = .predefinedConstant →
        l.text = ['\\', 'N']) ∧
      ∀ stream, tokenize .query source = .ok (.ok stream) →
        ∀ t ∈ stream.tokens, t.kind = .predefinedConstant → t.text = ['\\', 'N'] := by
  refine ⟨classify_eq_search, classify_ne_predefinedConstant, fun source => ⟨?_, ?_⟩⟩
  · intro l hl hkind
    have hevents : .token l ∈ Language.query.events source := by
      rw [Language.events_eq]
      exact List.mem_append_left _ hl
    rw [QueryLexer.constant_of_events hevents hkind]
    rfl
  · intro stream hstream t ht hkind
    rw [tokenize_eq_ok hstream] at ht
    have hconstant := QueryLexer.constant_of_events (Language.mem_events_of_mem_stream ht) hkind
    exact congrArg Lexeme.text hconstant

/-- The constant of a query, and a word of the list of constants, which is a
keyword. -/
theorem QueryWords.classify_searches_null :
    ∃ stream t, tokenize .query ['\\', 'N'] = .ok (.ok stream) ∧ t ∈ stream.tokens ∧
      t.kind = .predefinedConstant ∧ t.text = ['\\', 'N'] ∧
      classify ['n', 'U', 'l', 'l'] = .keyword := by
  obtain ⟨hsearch, -, hconstants⟩ := classify_searches
  have hstream : tokenize .query ['\\', 'N'] = .ok (.ok (Language.stream .query ['\\', 'N'])) :=
    tokenize_eq (by decide)
  have hkinds : (Language.stream .query ['\\', 'N']).tokens.map (·.kind) =
      [.predefinedConstant] := by decide +kernel
  obtain ⟨t, ht, hkind⟩ := List.exists_of_mem_map (hkinds ▸ List.mem_cons_self)
  refine ⟨_, t, hstream, ht, hkind, (hconstants _).2 _ hstream t ht hkind, ?_⟩
  rw [hsearch]
  decide +kernel

end Highlight1C
