import Highlight1C.Lexer.ModuleWords
import Highlight1C.Lexer.QueryWords
import Highlight1C.Text.Class

/-!
# The kinds that words can have

A word has the kind of the first of the lists that its lexicon was built from
that has it in letters of any case, and is a name if none has it
(`Lexicon.classify_ofTables`). So a list does not count if all that it has
stands in lists before it (`Lexicon.search_ne_of_shadowed`), and no word of a
query is a constant (`QueryWords.classify_ne_predefinedConstant`). No word is a
part of a string, layout or an error either (`ModuleWords.kinds_class`,
`QueryWords.kinds_class`). The list of directives of module code is for
words that begin with `&`; a word that begins with a letter does not do so in
lower case either, and is a name or a word of the language
(`ModuleWords.classify_word`).
-/

namespace Highlight1C

/-! ## Lower case -/

namespace Text

/-- What is done stands in front. -/
theorem lowerFrom_eq (before done text : List Char) :
    lowerFrom before done text = done.reverse ++ lowerFrom before [] text := by
  induction text generalizing before done with
  | nil => simp [lowerFrom]
  | cons c rest ih =>
    rw [lowerFrom, lowerFrom, ih (c :: before)]
    rw [ih (c :: before) (if c = 'Σ' then _ else _)]
    split
    · simp
    split
    · simp
    · simp

/-- The code points of the letters. -/
def letterCodes : List Nat :=
  List.range' 0x41 26 ++ List.range' 0x61 26 ++ List.range' 0x410 64 ++ [0x401, 0x451]

theorem mem_letterCodes {c : Char} (h : isLetter c = true) : c.toNat ∈ letterCodes := by
  have between (a b : Char) (hab : a ≤ c ∧ c ≤ b) : a.toNat ≤ c.toNat ∧ c.toNat ≤ b.toNat :=
    ⟨UInt32.le_iff_toNat_le.mp hab.1, UInt32.le_iff_toNat_le.mp hab.2⟩
  have hlatin : c.isAlpha = (decide ('A' ≤ c ∧ c ≤ 'Z') ||
      decide ('a' ≤ c) && decide (c ≤ 'z')) := rfl
  simp only [isLetter, hlatin, Bool.or_eq_true, Bool.and_eq_true, decide_eq_true_eq,
    beq_iff_eq] at h
  simp only [letterCodes, List.mem_append, List.mem_range'_1]
  rcases h with (((h | h) | h) | rfl) | rfl
  · have hcode := between 'A' 'Z' h
    simp at hcode
    omega
  · have hcode := between 'a' 'z' h
    simp at hcode
    omega
  · have hcode := between 'А' 'я' h
    simp at hcode
    omega
  · decide
  · decide

/-- What holds of the letters is decided one by one, and so is what holds of
all that can begin a name. -/
theorem forall_isNameStart {p : Char → Prop} [DecidablePred p]
    (h : ((0x5f :: letterCodes).all fun n => decide (p (Char.ofNat n))) = true) :
    ∀ c, isNameStart c = true → p c := by
  intro c hc
  have hcode : c.toNat ∈ 0x5f :: letterCodes := by
    simp only [isNameStart, Bool.or_eq_true, beq_iff_eq] at hc
    rcases hc with hc | rfl
    · exact List.mem_cons_of_mem _ (mem_letterCodes hc)
    · exact List.mem_cons_self
  have hp := of_decide_eq_true (List.all_eq_true.mp h _ hcode)
  rwa [Char.ofNat_toNat] at hp

/-- A text that can begin a name begins with the same letter in lower case. -/
theorem head?_lower {c : Char} (hc : isNameStart c = true) (cs : List Char) :
    (lower (c :: cs)).head? = some (lowerChar c) := by
  have hplain : ∀ d, isNameStart d = true → d ≠ 'Σ' ∧ d ≠ 'İ' := forall_isNameStart (by decide)
  obtain ⟨hsigma, hdotted⟩ := hplain c hc
  unfold lower
  rw [lowerFrom, lowerFrom_eq, if_neg hsigma, if_neg hdotted]
  rfl

end Text

/-! ## Lexicons -/

namespace Lexicon

/-- Whether a list has a word, in letters of any case. -/
def hasWord (word : List Char) (words : List String) : Bool :=
  words.any fun listed => Text.lower listed.toList == Text.lower word

/-- The kind of the first list that has a word. A word that no list has is a
name. -/
def search (tables : List (List String × TokenKind)) (word : List Char) : TokenKind :=
  ((tables.find? fun table => hasWord word table.1).map (·.2)).getD .ident

theorem hasWord_iff {word : List Char} {words : List String} :
    hasWord word words = true ↔ ∃ listed ∈ words, Text.lower listed.toList = Text.lower word := by
  simp [hasWord]

theorem lookup_enter (kind : TokenKind) (lexicon : Lexicon) (listed : String) (key : List Char) :
    (enter kind lexicon listed).lookup key =
      (lexicon.lookup key).or (if Text.lower listed.toList == key then some kind else none) := by
  simp only [enter]
  by_cases h : Text.lower listed.toList = key
  · rw [h]
    cases hfound : lexicon.lookup key <;> simp [hfound, List.lookup_append]
  · have hkey : (key == Text.lower listed.toList) = false := by simpa using Ne.symm h
    have hlast : List.lookup key [(Text.lower listed.toList, kind)] = none := by
      simp [List.lookup_cons, hkey]
    rw [if_neg (by simpa using h), Option.or_none]
    split
    · rfl
    · rw [List.lookup_append, hlast, Option.or_none]

theorem lookup_foldl_enter (kind : TokenKind) (words : List String) (lexicon : Lexicon)
    (word : List Char) :
    (words.foldl (enter kind) lexicon).lookup (Text.lower word) =
      (lexicon.lookup (Text.lower word)).or (if hasWord word words then some kind else none) := by
  induction words generalizing lexicon with
  | nil => simp [hasWord]
  | cons listed words ih =>
    have hcons : hasWord word (listed :: words) =
        (Text.lower listed.toList == Text.lower word || hasWord word words) := rfl
    rw [List.foldl_cons, ih, lookup_enter, Option.or_assoc, hcons]
    cases Text.lower listed.toList == Text.lower word <;> simp

/-- A word that is entered stays as it is, so the lists are searched in their
order behind what has been entered before them. -/
theorem lookup_foldl_tables (tables : List (List String × TokenKind)) (lexicon : Lexicon)
    (word : List Char) :
    (tables.foldl (fun lexicon (words, kind) => words.foldl (enter kind) lexicon) lexicon).lookup
        (Text.lower word) =
      (lexicon.lookup (Text.lower word)).or
        ((tables.find? fun table => hasWord word table.1).map (·.2)) := by
  induction tables generalizing lexicon with
  | nil => simp
  | cons table tables ih =>
    rw [List.foldl_cons, ih, lookup_foldl_enter, Option.or_assoc, List.find?_cons]
    cases hasWord word table.1 <;> rfl

/-- To look a word up in a lexicon is to search the lists that it was built
from. -/
theorem classify_ofTables (tables : List (List String × TokenKind)) (word : List Char) :
    (ofTables tables).classify word = search tables word := by
  rw [classify, ofTables, lookup_foldl_tables]
  rfl

/-- A word is a name, or has the kind of one of the lists that have it. -/
theorem search_cases (tables : List (List String × TokenKind)) (word : List Char) :
    search tables word = .ident ∨
      ∃ table ∈ tables, hasWord word table.1 = true ∧ search tables word = table.2 := by
  unfold search
  cases h : tables.find? fun table => hasWord word table.1 with
  | none => exact .inl rfl
  | some table =>
    have hhas := List.find?_some h
    exact .inr ⟨table, List.mem_of_find?_eq_some h, hhas, rfl⟩

/-- A list decides about no word if each of its words stands in a list before
it. -/
theorem search_ne_of_shadowed {before after : List (List String × TokenKind)} {words : List String}
    {kind : TokenKind} (hname : kind ≠ .ident)
    (hshadow : ∀ listed ∈ words, ∃ table ∈ before, hasWord listed.toList table.1 = true)
    (hother : ∀ table ∈ before ++ after, table.2 ≠ kind) (word : List Char) :
    search (before ++ (words, kind) :: after) word ≠ kind := by
  unfold search
  rw [List.find?_append]
  cases hbefore : before.find? fun table => hasWord word table.1 with
  | some table => exact hother table (List.mem_append_left _ (List.mem_of_find?_eq_some hbefore))
  | none =>
    have hnot : ¬ hasWord word words = true := by
      intro hhas
      obtain ⟨listed, hlisted, hword⟩ := hasWord_iff.mp hhas
      obtain ⟨table, htable, hin⟩ := hshadow listed hlisted
      refine List.find?_eq_none.mp hbefore table htable ?_
      unfold hasWord at hin ⊢
      rwa [← hword]
    have hskip : ((words, kind) :: after).find? (fun table => hasWord word table.1) =
        after.find? fun table => hasWord word table.1 := List.find?_cons_of_neg hnot
    rw [Option.none_or, hskip]
    cases hafter : after.find? fun table => hasWord word table.1 with
    | some table => exact hother table (List.mem_append_right _ (List.mem_of_find?_eq_some hafter))
    | none => exact hname.symm

/-- The kind of a word is that of names or that of a list. -/
theorem search_mem (tables : List (List String × TokenKind)) (word : List Char) :
    search tables word ∈ .ident :: tables.map (·.2) := by
  rcases search_cases tables word with h | ⟨table, htable, -, h⟩
  · rw [h]
    exact List.mem_cons_self
  · rw [h]
    exact List.mem_cons_of_mem _ (List.mem_map_of_mem htable)

end Lexicon

/-! ## The words of the languages -/

/-- The kinds of the words of module code. -/
def ModuleWords.kinds : List TokenKind := .ident :: tables.map (·.2)

/-- The kinds of the words of queries, apart from variables. No word is a
constant. -/
def QueryWords.kinds : List TokenKind :=
  (.ident :: tables.map (·.2)).erase .predefinedConstant

theorem ModuleWords.classify_eq_search (word : List Char) :
    classify word = Lexicon.search tables word :=
  Lexicon.classify_ofTables tables word

theorem QueryWords.classify_eq_search (word : List Char) :
    classify word = Lexicon.search tables word :=
  Lexicon.classify_ofTables tables word

theorem ModuleWords.classify_mem_kinds (word : List Char) : classify word ∈ kinds :=
  classify_eq_search word ▸ Lexicon.search_mem tables word

/-- The words for constants are keywords already. -/
theorem QueryWords.constants_are_keywords :
    ∀ listed ∈ predefinedConstants, Lexicon.hasWord listed.toList keywords = true := by
  decide +kernel

/-- So no word of a query is a constant. -/
theorem QueryWords.classify_ne_predefinedConstant (word : List Char) :
    classify word ≠ .predefinedConstant := by
  have hshadow : ∀ listed ∈ predefinedConstants,
      ∃ table ∈ tables.take 4, Lexicon.hasWord listed.toList table.1 = true := by
    intro listed hlisted
    exact ⟨(keywords, .keyword), List.mem_cons_self, constants_are_keywords listed hlisted⟩
  have hother : ∀ table ∈ tables.take 4 ++ tables.drop 5, table.2 ≠ .predefinedConstant := by
    decide +kernel
  rw [classify_eq_search]
  exact Lexicon.search_ne_of_shadowed (by decide) hshadow hother word

theorem QueryWords.classify_mem_kinds (word : List Char) : classify word ∈ kinds := by
  refine (List.mem_erase_of_ne (classify_ne_predefinedConstant word)).mpr ?_
  rw [classify_eq_search]
  exact Lexicon.search_mem tables word

/-- No word of module code is a part of a string, or layout. -/
theorem ModuleWords.kinds_class : ∀ kind ∈ kinds, kind.isStringPart = false ∧ kind ≠ .space := by
  decide

/-- No word of a query is a part of a string, layout or an error. -/
theorem QueryWords.kinds_class :
    ∀ kind ∈ kinds, kind.isStringPart = false ∧ kind ≠ .space ∧ kind ≠ .error := by
  decide

/-- A word of module code that begins with a letter or an underscore is a name
or a word of the language, and so is the sign of directives on its own. -/
theorem ModuleWords.classify_word {c : Char} {cs : List Char}
    (h : Text.isNameStart c = true ∨ c = '&' ∧ cs = []) :
    classify (c :: cs) = .ident ∨ classify (c :: cs) = .keyword := by
  rw [classify_eq_search]
  rcases Lexicon.search_cases tables (c :: cs) with hkind | ⟨table, htable, hhas, hkind⟩
  · exact .inl hkind
  simp only [tables, List.mem_cons, List.not_mem_nil, or_false] at htable
  rcases htable with rfl | rfl
  · exact .inr hkind
  -- a listed directive begins with its sign, and is more than the sign
  obtain ⟨listed, hmem, heq⟩ := Lexicon.hasWord_iff.mp hhas
  have hsign : ∀ word ∈ directives, (Text.lower word.toList).head? = some '&' ∧
      Text.lower word.toList ≠ ['&'] := by
    decide +kernel
  obtain ⟨hhead, hmore⟩ := hsign listed hmem
  rw [heq] at hhead hmore
  rcases h with hc | ⟨rfl, rfl⟩
  · have hletter : ∀ d, Text.isNameStart d = true → Text.lowerChar d ≠ '&' :=
      Text.forall_isNameStart (by decide +kernel)
    rw [Text.head?_lower hc] at hhead
    exact absurd (Option.some.inj hhead) (hletter c hc)
  · exact absurd rfl hmore

end Highlight1C
