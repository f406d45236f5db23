import Highlight1C.Lexer.Query
import Highlight1C.Proofs.Lexer
import Highlight1C.Proofs.Text
import Highlight1C.Proofs.Words

/-!
# The moves of the lexer of queries

`CodeRule` lists the moves outside strings, each with what makes its rule
apply, and `StringRule` those within a string; `codeMove_rule` and
`stringMove?_rule` say that there are no others, and that within a string
some rule always applies. Every token is made of what comes next, after what
was held back (`lineComment?_isPrefix` and so on), so the lexer loses nothing
(`lossless`).
-/

namespace Highlight1C.QueryLexer

open Text

/-- Whether a character of a string is neither a quote nor a backslash. -/
def isPlain (c : Char) : Bool := c != '\\' && !isQuote c

/-- The rules outside strings. -/
inductive CodeRule (nameExpected : Bool) (c : Char) (cs : List Char) : Move State → Prop where
  | space (hc : isSpace c = true) :
    CodeRule nameExpected c cs (.token .space c (cs.takeWhile isSpace) (.code nameExpected))
  | continuation (hc : c = '\\') (hd : cs.head? = some '\n') :
    CodeRule nameExpected c cs (.token .space c ['\n'] (.code nameExpected))
  | lineComment {more : List Char} (h : lineComment? c cs = some more) :
    CodeRule nameExpected c cs (.token .comment c more (.code nameExpected))
  | blockComment {kind : TokenKind} {more : List Char} (h : blockComment? c cs = some (kind, more)) :
    CodeRule nameExpected c cs (.token kind c more (.code nameExpected))
  | operator (hline : lineComment? c cs = none) (hblock : blockComment? c cs = none)
    (h : isOperator c cs = true) :
    CodeRule nameExpected c cs
      (.token .operator c [] (.code (nameExpected || (c == '.' && cs.head?.any isNameStart))))
  | opening {modifier : List Char} {quote : Char} (h : stringOpening? c cs = some (modifier, quote)) :
    CodeRule nameExpected c cs (openingMove nameExpected modifier quote)
  | word {more : List Char} (hopening : stringOpening? c cs = none)
    (h : wordTail? c cs = some more) :
    CodeRule nameExpected c cs (.token (wordKind nameExpected (c :: more)) c more (.code false))
  | hex {more : List Char} (h : hexTail? c cs = some more) :
    CodeRule nameExpected c cs (.token .hex c more (.code nameExpected))
  | octal {more : List Char} (hhex : hexTail? c cs = none) (h : octalTail? c cs = some more) :
    CodeRule nameExpected c cs (.token .octal c more (.code nameExpected))
  | decimal {kind : TokenKind} {more : List Char} (hhex : hexTail? c cs = none)
    (hoctal : octalTail? c cs = none) (hop : isOperator c cs = false)
    (h : decimalTail? c cs = some (kind, more)) :
    CodeRule nameExpected c cs (.token kind c more (.code nameExpected))
  | constant (hc : c = '\\') (hd : cs.head? = some 'N') :
    CodeRule nameExpected c cs (.token .predefinedConstant c ['N'] (.code nameExpected))
  | error (hspace : isSpace c = false) (hline : lineComment? c cs = none)
    (hop : isOperator c cs = false) (hopening : stringOpening? c cs = none)
    (hword : wordTail? c cs = none) (hhex : hexTail? c cs = none) (hoctal : octalTail? c cs = none)
    (hdecimal : decimalTail? c cs = none)
    (hback : ¬ (c = '\\' ∧ (cs.head? = some '\n' ∨ cs.head? = some 'N'))) :
    CodeRule nameExpected c cs (.token .error c [] (.code nameExpected))

/-- Every move outside strings is by one of the rules. -/
theorem codeMove_rule (nameExpected : Bool) (c : Char) (cs : List Char) :
    CodeRule nameExpected c cs (codeMove nameExpected c cs) := by
  unfold codeMove
  split
  · next h => exact .space h
  split
  · next h => exact .continuation h.1 h.2
  next hspace hcont =>
  split
  · next h => exact .lineComment h
  next hline =>
  split
  · next h => exact .blockComment h
  next hblock =>
  split
  · next h => exact .operator hline hblock h
  next hop =>
  split
  · next h => exact .opening h
  next hopening =>
  split
  · next h => exact .word hopening h
  next hword =>
  unfold numberMove
  split
  · next h => exact .hex h
  next hhex =>
  split
  · next h => exact .octal hhex h
  next hoctal =>
  rw [Bool.not_eq_true] at hop hspace
  split
  · next h => exact .decimal hhex hoctal hop h
  next hdecimal =>
  split
  · next h => exact .constant h.1 h.2
  · next h =>
    refine .error hspace hline hop hopening hword hhex hoctal hdecimal ?_
    rintro ⟨hc, hd | hd⟩
    · exact hcont ⟨hc, hd⟩
    · exact h ⟨hc, hd⟩

/-- The rules within a string that the character `quote` ends. -/
inductive StringRule (nameExpected : Bool) (quote : Char) (held : List Char) (c : Char)
    (cs : List Char) : Move State → Prop where
  | plain (hc : isPlain c = true) :
    StringRule nameExpected quote held c cs
      ⟨[], (cs.takeWhile isPlain).length,
        .string nameExpected quote ((cs.takeWhile isPlain).reverse ++ c :: held)⟩
  | doubled (hc : c = quote) (hplain : isPlain c = false) (hd : cs.head? = some quote) :
    StringRule nameExpected quote held c cs
      ⟨[], 1, .string nameExpected quote (quote :: c :: held)⟩
  | closing (hc : c = quote) (hplain : isPlain c = false) (hd : cs.head? ≠ some quote) :
    StringRule nameExpected quote held c cs
      ⟨release held ++ [.token ⟨.delimiter, [c]⟩, .endGroup], 0, .code nameExpected⟩
  | foreign (hc : isQuote c = true) (hquote : c ≠ quote) :
    StringRule nameExpected quote held c cs ⟨[], 0, .string nameExpected quote (c :: held)⟩
  | escape {more : List Char} (hc : c = '\\') (hquote : c ≠ quote) (h : escapeTail? cs = some more) :
    StringRule nameExpected quote held c cs
      ⟨release held ++ [.token ⟨.char, c :: more⟩], more.length, .string nameExpected quote []⟩
  | broken (hc : c = '\\') (hquote : c ≠ quote) (hend : cs = []) :
    StringRule nameExpected quote held c cs
      ⟨release held ++ [.token ⟨.error, [c]⟩, .endGroup], 0, .code nameExpected⟩

/-- An escape is there unless the text ends. -/
theorem escapeTail?_eq_none {cs : List Char} (h : escapeTail? cs = none) : cs = [] := by
  cases cs with
  | nil => rfl
  | cons c cs =>
    simp only [escapeTail?] at h
    repeat (split at h; · cases h)
    cases h

/-- Within a string a rule always applies: what is neither plain nor a quote
is a backslash. -/
theorem stringMove?_rule (nameExpected : Bool) (quote : Char) (held : List Char) (c : Char)
    (cs : List Char) : ∃ move, stringMove? nameExpected quote held c cs = some move ∧
      StringRule nameExpected quote held c cs move := by
  have hback (hplain : ¬ isPlain c = true) (hq : ¬ isQuote c = true) : c = '\\' := by
    simpa [isPlain, hq] using hplain
  unfold stringMove?
  simp only []
  split
  · next h => exact ⟨_, rfl, .plain h⟩
  next hplain =>
  have hplain' : isPlain c = false := Bool.not_eq_true _ ▸ hplain
  split
  · next hc =>
    split
    · next hd => exact ⟨_, rfl, .doubled hc hplain' hd⟩
    · next hd => exact ⟨_, rfl, .closing hc hplain' hd⟩
  next hquote =>
  split
  · next h => exact ⟨_, rfl, .foreign h hquote⟩
  next hq =>
  have hc : c = '\\' := hback hplain hq
  split
  · next h =>
    rw [if_pos hc]
    exact ⟨_, rfl, .escape hc hquote h⟩
  · next h =>
    rw [if_pos hc]
    exact ⟨_, rfl, .broken hc hquote (escapeTail?_eq_none h)⟩

/-- Every step outside strings is by one of the rules. -/
theorem codeRule_of_step {nameExpected : Bool} {c : Char} {cs : List Char} {move : Move State}
    (h : lexer.step (.code nameExpected) c cs = some move) : CodeRule nameExpected c cs move :=
  Option.some.inj h ▸ codeMove_rule nameExpected c cs

/-- So is every step within a string. -/
theorem stringRule_of_step {nameExpected : Bool} {quote : Char} {held : List Char} {c : Char}
    {cs : List Char} {move : Move State}
    (h : lexer.step (.string nameExpected quote held) c cs = some move) :
    StringRule nameExpected quote held c cs move := by
  obtain ⟨move', h', hrule⟩ := stringMove?_rule nameExpected quote held c cs
  cases h.symm.trans h'
  exact hrule

/-! ## Tokens are made of what comes next -/

theorem lineComment?_isPrefix {c : Char} {cs more : List Char} (h : lineComment? c cs = some more) :
    more <+: cs := by
  unfold lineComment? at h
  split at h
  · cases h
    exact List.takeWhile_prefix _
  · cases h

theorem throughCloseFrom_cons (passed : List Char) (c : Char) (cs : List Char) :
    throughCloseFrom passed (c :: cs) =
      if c = '*' ∧ cs.head? = some '/' then passed.reverse ++ ['*', '/']
      else throughCloseFrom (c :: passed) cs := by
  rw [throughCloseFrom.eq_def]
  split
  · next heq =>
    cases heq
    simp
  · next c' cs' hne heq =>
    cases heq
    rw [if_neg]
    rintro ⟨rfl, hd⟩
    obtain ⟨rest, rfl⟩ := List.head?_eq_some_iff.mp hd
    exact hne rest rfl rfl
  · next heq => cases heq

/-- What has been passed stands in front. -/
theorem throughCloseFrom_eq (passed text : List Char) :
    throughCloseFrom passed text = passed.reverse ++ throughClose text := by
  unfold throughClose
  induction text generalizing passed with
  | nil => simp [throughCloseFrom]
  | cons c cs ih =>
    rw [throughCloseFrom_cons, throughCloseFrom_cons]
    split
    · rfl
    · rw [ih (c :: passed), ih [c]]
      simp

/-- A text through its first `*/`, one character further on. -/
theorem throughClose_cons (c : Char) (cs : List Char) :
    throughClose (c :: cs) =
      if c = '*' ∧ cs.head? = some '/' then ['*', '/'] else c :: throughClose cs := by
  rw [throughClose, throughCloseFrom_cons, throughCloseFrom_eq]
  rfl

theorem throughClose_isPrefix (text : List Char) : throughClose text <+: text := by
  induction text with
  | nil => exact List.nil_prefix
  | cons c cs ih =>
    rw [throughClose_cons]
    split
    · next h => exact h.1 ▸ (List.prefix_cons_inj '*').mpr (singleton_isPrefix h.2)
    · exact (List.prefix_cons_inj c).mpr ih

theorem blockComment?_isPrefix {c : Char} {cs more : List Char} {kind : TokenKind}
    (h : blockComment? c cs = some (kind, more)) :
    more <+: cs ∧ kind.isStringPart = false := by
  unfold blockComment? at h
  split at h
  · cases h
  · split at h
    · cases h
      exact ⟨(List.prefix_append_right_inj ['*', '!']).mpr (throughClose_isPrefix _), rfl⟩
    · cases h
      exact ⟨(List.prefix_cons_inj '*').mpr (throughClose_isPrefix _), rfl⟩
    · cases h

theorem blockComment?_kind {c : Char} {cs more : List Char} {kind : TokenKind}
    (h : blockComment? c cs = some (kind, more)) : kind = .directive ∨ kind = .comment := by
  unfold blockComment? at h
  split at h
  · cases h
  split at h
  · cases h; exact .inl rfl
  · cases h; exact .inr rfl
  · cases h

theorem quoteAt?_eq_some {text : List Char} {q : Char} (h : quoteAt? text = some q) :
    text.head? = some q ∧ isQuote q = true := by
  unfold quoteAt? at h
  rw [Option.filter_eq_some_iff] at h
  exact h

/-- A string begins with what stands before its quote, and the quote. -/
theorem stringOpening?_isPrefix {c q : Char} {cs modifier : List Char}
    (h : stringOpening? c cs = some (modifier, q)) :
    modifier ++ [q] <+: c :: cs ∧ isQuote q = true := by
  unfold stringOpening? at h
  split at h
  · next hq =>
    cases h
    exact ⟨⟨cs, rfl⟩, hq⟩
  split at h
  · obtain ⟨q', hq, heq⟩ := Option.map_eq_some_iff.mp h
    cases heq
    obtain ⟨hhead, hquote⟩ := quoteAt?_eq_some hq
    exact ⟨(List.prefix_cons_inj c).mpr (singleton_isPrefix hhead), hquote⟩
  split at h
  · simp only [] at h
    split at h
    · cases h
    · obtain ⟨q', hq, heq⟩ := Option.map_eq_some_iff.mp h
      cases heq
      obtain ⟨hhead, hquote⟩ := quoteAt?_eq_some hq
      refine ⟨(List.prefix_cons_inj c).mpr ?_, hquote⟩
      exact append_isPrefix (List.takeWhile_prefix _) (singleton_isPrefix hhead)
  · cases h

theorem wordTail?_isPrefix {c : Char} {cs more : List Char} (h : wordTail? c cs = some more) :
    more <+: cs := by
  unfold wordTail? at h
  split at h
  · split at h
    · next d ds =>
      split at h
      · cases h
        exact (List.prefix_cons_inj d).mpr (List.takeWhile_prefix _)
      · cases h
    · cases h
  · split at h
    · cases h
      exact List.takeWhile_prefix _
    · cases h

theorem hexTail?_isPrefix {c : Char} {cs more : List Char} (h : hexTail? c cs = some more) :
    more <+: cs := by
  unfold hexTail? at h
  split at h
  · next x ds =>
    split at h
    · simp only [] at h
      split at h
      · cases h
      · cases h
        exact (List.prefix_cons_inj x).mpr (List.takeWhile_prefix _)
    · cases h
  · cases h

theorem octalTail?_isPrefix {c : Char} {cs more : List Char} (h : octalTail? c cs = some more) :
    more <+: cs := by
  unfold octalTail? at h
  split at h
  · simp only [] at h
    split at h
    · cases h
    · cases h
      exact List.takeWhile_prefix _
  · cases h

theorem sign_isPrefix (text : List Char) : (text.take 1).filter isSign <+: text := by
  cases text with
  | nil => exact List.nil_prefix
  | cons c cs =>
    by_cases hc : isSign c = true
    · exact ⟨cs, by simp [hc]⟩
    · exact ⟨c :: cs, by simp [hc]⟩

theorem exponent?_isPrefix {text exponent : List Char} (h : exponent? text = some exponent) :
    exponent <+: text := by
  unfold exponent? at h
  split at h
  · next e rest =>
    simp only [] at h
    split at h
    · cases h
      exact (List.prefix_cons_inj e).mpr (append_isPrefix (sign_isPrefix rest) (List.takeWhile_prefix _))
    · cases h
  · cases h

theorem fraction?_isPrefix {whole rest number : List Char} (h : fraction? whole rest = some number) :
    number <+: whole ++ rest := by
  unfold fraction? at h
  split at h
  · next after =>
    simp only [] at h
    split at h
    · cases h
    · cases h
      rw [List.append_assoc, List.prefix_append_right_inj]
      refine (List.prefix_cons_inj '.').mpr (append_isPrefix (List.takeWhile_prefix _) ?_)
      cases he : exponent? (after.drop (after.takeWhile Char.isDigit).length) with
      | none => exact List.nil_prefix
      | some exponent => exact exponent?_isPrefix he
  · next f rest _ =>
    split at h
    · cases h
    split at h
    · cases h
      exact (List.prefix_append_right_inj whole).mpr ⟨rest, rfl⟩
    · obtain ⟨exponent, he, rfl⟩ := Option.map_eq_some_iff.mp h
      exact (List.prefix_append_right_inj whole).mpr (exponent?_isPrefix he)
  · cases h

/-- A decimal number begins the text, and is whole or a fraction. -/
theorem decimal?_isPrefix {text number : List Char} {kind : TokenKind}
    (h : decimal? text = some (kind, number)) :
    number <+: text ∧ (kind = .integer ∨ kind = .float) := by
  unfold decimal? at h
  simp only [] at h
  split at h
  · cases h
    exact ⟨List.takeWhile_prefix _, .inl rfl⟩
  · obtain ⟨number', hf, heq⟩ := Option.map_eq_some_iff.mp h
    cases heq
    have hp := fraction?_isPrefix hf
    rw [List.prefix_iff_eq_append.mp (List.takeWhile_prefix _)] at hp
    exact ⟨hp, .inr rfl⟩

theorem decimalTail?_isPrefix {c : Char} {cs more : List Char} {kind : TokenKind}
    (h : decimalTail? c cs = some (kind, more)) :
    more <+: cs ∧ (kind = .integer ∨ kind = .float) := by
  unfold decimalTail? at h
  split at h
  · exact decimal?_isPrefix h
  · obtain ⟨⟨kind', number⟩, hd, heq⟩ := Option.map_eq_some_iff.mp h
    cases heq
    obtain ⟨hp, hkind⟩ := decimal?_isPrefix hd
    refine ⟨?_, hkind⟩
    cases number with
    | nil => exact List.nil_prefix
    | cons d ds => exact ((List.cons_prefix_cons).mp hp).2

theorem escapeTail?_isPrefix {cs more : List Char} (h : escapeTail? cs = some more) :
    more <+: cs ∧ more ≠ [] := by
  cases cs with
  | nil => cases h
  | cons c cs =>
    have run (p : Char → Bool) (n : Nat) : c :: (cs.take n).takeWhile p <+: c :: cs :=
      (List.prefix_cons_inj c).mpr ((List.takeWhile_prefix p).trans (List.take_prefix n cs))
    simp only [escapeTail?] at h
    split at h
    · cases h; exact ⟨run _ _, List.cons_ne_nil _ _⟩
    split at h
    · cases h; exact ⟨run _ _, List.cons_ne_nil _ _⟩
    split at h
    · cases h; exact ⟨run _ _, List.cons_ne_nil _ _⟩
    split at h
    · cases h; exact ⟨run _ _, List.cons_ne_nil _ _⟩
    · cases h; exact ⟨⟨cs, rfl⟩, List.cons_ne_nil _ _⟩

/-! ## Nothing is lost -/

/-- Within a string, content is held back. -/
def held : State → List Char
  | .code _ => []
  | .string _ _ held => held.reverse

theorem textOf_release (held : List Char) : textOf (release held) = held.reverse := by
  unfold release
  split
  · next h => rw [h]; rfl
  · simp

theorem full_release (held : List Char) : ∀ l, .token l ∈ release held → l.text ≠ [] := by
  intro l hl
  unfold release at hl
  split at hl
  · exact absurd hl List.not_mem_nil
  · next h =>
    cases List.mem_singleton.mp hl
    simpa using h

theorem part_of_mem_release {held : List Char} {l : Lexeme} (hl : .token l ∈ release held) :
    l.kind.isStringPart = true := by
  unfold release at hl
  split at hl
  · exact absurd hl List.not_mem_nil
  · cases List.mem_singleton.mp hl
    rfl

/-- What is held back is written as a part of a string, or not at all. -/
theorem not_mem_release {held : List Char} {l : Lexeme} (hkind : l.kind.isStringPart = false) :
    .token l ∉ release held := by
  intro hl
  cases hkind.symm.trans (part_of_mem_release hl)

theorem part_of_mem_openingMove {nameExpected : Bool} {modifier : List Char} {quote : Char}
    {l : Lexeme} (hl : .token l ∈ (openingMove nameExpected modifier quote).writes) :
    l.kind.isStringPart = true := by
  simp only [openingMove] at hl
  split at hl
  · simp at hl
    cases hl
    rfl
  · simp at hl
    rcases hl with hl | hl <;> cases hl <;> rfl

theorem nested_release (held : List Char) : Mode.inString.afterAll? (release held) = some .inString := by
  unfold release
  split <;> rfl

/-- The kind of a word is never that of a part of a string, of layout or of an
error. -/
theorem wordKind_class (nameExpected : Bool) (word : List Char) :
    (wordKind nameExpected word).isStringPart = false ∧ wordKind nameExpected word ≠ .space ∧
      wordKind nameExpected word ≠ .error := by
  unfold wordKind
  split
  · decide
  split
  · decide
  · exact QueryWords.kinds_class _ (QueryWords.classify_mem_kinds word)

theorem CodeRule.keeps {nameExpected : Bool} {c : Char} {cs : List Char} {move : Move State}
    (h : CodeRule nameExpected c cs move) : lexer.Keeps held (.code nameExpected) c cs move := by
  have token {kind : TokenKind} {more : List Char} {next : Bool} (hmore : more <+: cs)
      (hkind : kind.isStringPart = false) :
      lexer.Keeps held (.code nameExpected) c cs (.token kind c more (.code next)) :=
    .token hmore rfl rfl rfl (.inr hkind)
  cases h with
  | space => exact token (List.takeWhile_prefix _) rfl
  | continuation _ hd => exact token (singleton_isPrefix hd) rfl
  | lineComment h => exact token (lineComment?_isPrefix h) rfl
  | blockComment h => exact token (blockComment?_isPrefix h).1 (blockComment?_isPrefix h).2
  | operator => exact token List.nil_prefix rfl
  | @opening modifier quote h =>
    obtain ⟨rest, hrest⟩ := (stringOpening?_isPrefix h).1
    have hlen := congrArg List.length hrest
    simp only [List.length_append, List.length_cons] at hlen
    have htake : c :: cs.take modifier.length = modifier ++ [quote] := by
      rw [← List.take_succ_cons, ← hrest,
        List.take_left' (by rw [List.length_append, List.length_singleton])]
    refine ⟨?_, ?_, ?_, ?_⟩
    · simp only [openingMove]
      omega
    · simp only [openingMove, htake, held]
      split
      · next h => simp [h]
      · simp
    · simp only [openingMove]
      split
      · simp
      · next hne => simp [hne]
    · simp only [openingMove]
      split <;> rfl
  | word _ h => exact token (wordTail?_isPrefix h) (wordKind_class _ _).1
  | hex h => exact token (hexTail?_isPrefix h) rfl
  | octal _ h => exact token (octalTail?_isPrefix h) rfl
  | decimal _ _ _ h =>
    obtain ⟨hp, rfl | rfl⟩ := decimalTail?_isPrefix h
    · exact token hp rfl
    · exact token hp rfl
  | constant _ hd => exact token (singleton_isPrefix hd) rfl
  | error => exact token List.nil_prefix rfl

/-- A move that writes what is held back, and one lexeme after it. -/
theorem keeps_release {nameExpected : Bool} {quote c : Char} {held' cs more : List Char}
    {kind : TokenKind} {markers : List (Piece Lexeme)} {next : State} (hmore : more <+: cs)
    (hnext : held next = []) (hmarkers : textOf markers = [] ∧ ∀ l, .token l ∉ markers)
    (hmode : Mode.inString.afterAll? markers = some (lexer.mode next)) :
    lexer.Keeps held (.string nameExpected quote held') c cs
      ⟨release held' ++ .token ⟨kind, c :: more⟩ :: markers, more.length, next⟩ where
  within := hmore.length_le
  text := by
    have htake := List.prefix_iff_eq_take.mp hmore
    rw [textOf_append, textOf_release, textOf_token, hmarkers.1, hnext, ← htake, held]
    simp
  full := by
    intro l hl
    rcases List.mem_append.mp hl with hl | hl
    · exact full_release held' l hl
    rcases List.mem_cons.mp hl with hl | hl
    · cases hl
      exact List.cons_ne_nil _ _
    · exact absurd hl (hmarkers.2 l)
  nested := by
    have hmode' : lexer.mode (.string nameExpected quote held') = .inString := rfl
    rw [Mode.afterAll?_append, hmode', nested_release]
    simpa [Mode.afterAll?_cons, Mode.after?] using hmode

theorem StringRule.keeps {nameExpected : Bool} {quote c : Char} {held' cs : List Char}
    {move : Move State} (h : StringRule nameExpected quote held' c cs move) :
    lexer.Keeps held (.string nameExpected quote held') c cs move := by
  have held_back {more : List Char} (hmore : more <+: cs) :
      lexer.Keeps held (.string nameExpected quote held') c cs
        ⟨[], more.length, .string nameExpected quote (more.reverse ++ c :: held')⟩ := by
    have htake := List.prefix_iff_eq_take.mp hmore
    exact ⟨hmore.length_le, by simp [held, ← htake], by simp, rfl⟩
  cases h with
  | plain => exact held_back (List.takeWhile_prefix _)
  | doubled _ _ hd => exact held_back (singleton_isPrefix hd)
  | closing => exact keeps_release List.nil_prefix rfl ⟨rfl, by simp⟩ rfl
  | foreign => exact held_back List.nil_prefix
  | escape _ _ h => exact keeps_release (escapeTail?_isPrefix h).1 rfl ⟨rfl, by simp⟩ rfl
  | broken => exact keeps_release List.nil_prefix rfl ⟨rfl, by simp⟩ rfl

/-- The lexer of queries loses nothing. -/
theorem lossless : lexer.Lossless held where
  start_held := rfl
  start_mode := rfl
  step
    | .code nameExpected, c, cs => ⟨_, rfl, (codeMove_rule nameExpected c cs).keeps⟩
    | .string nameExpected quote held, c, cs =>
      let ⟨move, hs, hr⟩ := stringMove?_rule nameExpected quote held c cs
      ⟨move, hs, hr.keeps⟩
  flush_text
    | .code _ => rfl
    | .string _ _ held => textOf_release held
  flush_full
    | .code _, _, h => absurd h List.not_mem_nil
    | .string _ _ held, l, h => full_release held l h
  flush_nested
    | .code _ => rfl
    | .string _ _ held => nested_release held

end Highlight1C.QueryLexer
