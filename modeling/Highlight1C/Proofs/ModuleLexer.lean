import Highlight1C.Lexer.Module
import Highlight1C.Proofs.Lexer
import Highlight1C.Proofs.Text
import Highlight1C.Proofs.Words

/-!
# The moves of the lexer of module code

`CodeRule` lists the moves outside strings, each with what makes its rule
apply, and `StringRule` those within a string; `codeMove_rule` and
`stringMove?_rule` say that there are no others, and that within a string some
rule always applies. Every token is made of what comes next
(`operatorTail?_isPrefix`, `fraction?_isPrefix`), so the lexer loses nothing
(`lossless`).
-/

namespace Highlight1C.ModuleLexer

open Text

/-- The rules outside strings. -/
inductive CodeRule (nameFollows : Bool) (c : Char) (cs : List Char) : Move State → Prop where
  | space (hc : isSpace c = true) :
    CodeRule nameFollows c cs (.token .space c (cs.takeWhile isSpace) (.code nameFollows))
  | preprocessor (hc : c = '#') :
    CodeRule nameFollows c cs (.token .preprocessor c (restOfLine cs) (.code nameFollows))
  | directive (hc : c = '&') (hline : restOfLine cs ≠ []) :
    CodeRule nameFollows c cs (.token .directive c (restOfLine cs) (.code nameFollows))
  | comment (hc : c = '/') (hd : cs.head? = some '/') :
    CodeRule nameFollows c cs (.token .comment c (restOfLine cs) (.code nameFollows))
  | operator {more : List Char} (hcomment : ¬ (c = '/' ∧ cs.head? = some '/'))
    (hop : operatorTail? c cs = some more) :
    CodeRule nameFollows c cs (.token .operator c more (.code (c == '.')))
  | word (hc : isNameStart c = true ∨ c = '&' ∧ restOfLine cs = []) :
    CodeRule nameFollows c cs
      (.token (if nameFollows then .ident else ModuleWords.classify (c :: cs.takeWhile isWordChar)) c
        (cs.takeWhile isWordChar) (.code (ModuleWords.announcesName (c :: cs.takeWhile isWordChar))))
  | opening (hc : c = quote) :
    CodeRule nameFollows c cs ⟨[.beginGroup, .token ⟨.delimiter, [c]⟩], 0, .string⟩
  | float {fraction : List Char} (hc : c.isDigit = true)
    (hf : fraction? (cs.drop (cs.takeWhile Char.isDigit).length) = some fraction) :
    CodeRule nameFollows c cs
      (.token .float c (cs.takeWhile Char.isDigit ++ fraction) (.code false))
  | integer (hc : c.isDigit = true)
    (hf : fraction? (cs.drop (cs.takeWhile Char.isDigit).length) = none) :
    CodeRule nameFollows c cs (.token .integer c (cs.takeWhile Char.isDigit) (.code false))
  | error (hspace : isSpace c = false) (hhash : c ≠ '#') (hamp : c ≠ '&')
    (hop : operatorTail? c cs = none) (hname : isNameStart c = false) (hquote : c ≠ quote)
    (hdigit : c.isDigit = false) :
    CodeRule nameFollows c cs (.token .error c [] (.code nameFollows))

/-- Every move outside strings is by one of the rules. -/
theorem codeMove_rule (nameFollows : Bool) (c : Char) (cs : List Char) :
    CodeRule nameFollows c cs (codeMove nameFollows c cs) := by
  unfold codeMove
  split
  · next h => exact .space h
  split
  · next h => exact .preprocessor h
  split
  · next h => exact .directive h.1 h.2
  split
  · next h => exact .comment h.1 h.2
  next hspace hhash hdir hcomment =>
  split
  · next hop => exact .operator hcomment hop
  next hop =>
  split
  · next h =>
    refine .word (h.imp_right fun hamp => ⟨hamp, ?_⟩)
    exact Decidable.byContradiction fun hline => hdir ⟨hamp, hline⟩
  next hword =>
  split
  · next h => exact .opening h
  next hquote =>
  split
  · next h =>
    unfold numberMove
    simp only []
    split
    · next hf => exact .float h hf
    · next hf => exact .integer h hf
  · next hdigit =>
    simp only [not_or, Bool.not_eq_true] at hword hdigit hspace
    exact .error hspace hhash hword.2 hop hword.1 hquote hdigit

/-- The rules within a string. -/
inductive StringRule (c : Char) (cs : List Char) : Move State → Prop where
  | content (hc : c ≠ quote) :
    StringRule c cs (.token .content c (cs.takeWhile (· != quote)) .string)
  | doubled (hc : c = quote) (hd : cs.head? = some quote) :
    StringRule c cs (.token .char c [quote] .string)
  | closing (hc : c = quote) (hd : cs.head? ≠ some quote) :
    StringRule c cs ⟨[.token ⟨.delimiter, [c]⟩, .endGroup], 0, .code false⟩

/-- Within a string one of the rules always applies. -/
theorem stringMove?_rule (c : Char) (cs : List Char) :
    ∃ move, stringMove? c cs = some move ∧ StringRule c cs move := by
  unfold stringMove?
  simp only []
  split
  · next h => exact ⟨_, rfl, .content (bne_iff_ne.mp h)⟩
  next hcontent =>
  split
  · next h => exact ⟨_, rfl, .doubled h.1 h.2⟩
  next hdoubled =>
  split
  · next hc => exact ⟨_, rfl, .closing hc fun hd => hdoubled ⟨hc, hd⟩⟩
  · next hc => exact absurd (bne_iff_ne.mpr hc) hcontent

/-- Every step outside strings is by one of the rules. -/
theorem codeRule_of_step {nameFollows : Bool} {c : Char} {cs : List Char} {move : Move State}
    (h : lexer.step (.code nameFollows) c cs = some move) : CodeRule nameFollows c cs move :=
  Option.some.inj h ▸ codeMove_rule nameFollows c cs

/-- So is every step within a string. -/
theorem stringRule_of_step {c : Char} {cs : List Char} {move : Move State}
    (h : lexer.step .string c cs = some move) : StringRule c cs move := by
  obtain ⟨move', h', hrule⟩ := stringMove?_rule c cs
  cases h.symm.trans h'
  exact hrule

/-- A word is a name or a word of the language. -/
theorem word_kind (nameFollows : Bool) {c : Char} {cs : List Char}
    (hc : isNameStart c = true ∨ c = '&' ∧ restOfLine cs = []) :
    let kind := if nameFollows then TokenKind.ident
      else ModuleWords.classify (c :: cs.takeWhile isWordChar)
    kind = .ident ∨ kind = .keyword := by
  cases nameFollows with
  | true => exact .inl rfl
  | false =>
    refine ModuleWords.classify_word (hc.imp_right fun ⟨hamp, hline⟩ => ⟨hamp, ?_⟩)
    refine takeWhile_eq_nil_of_stop fun d hd => ?_
    rw [restOfLine_eq_nil.mp hline d hd]
    decide

/-! ## Tokens are made of what comes next -/

theorem operatorTail?_isPrefix {c : Char} {cs more : List Char} (h : operatorTail? c cs = some more) :
    more <+: cs := by
  unfold operatorTail? at h
  split at h
  · next d ds =>
    split at h
    · cases h
      exact ⟨ds, rfl⟩
    · split at h
      · cases h
        exact List.nil_prefix
      · cases h
  · split at h
    · cases h
      exact List.nil_prefix
    · cases h

theorem fraction?_isPrefix {text fraction : List Char} (h : fraction? text = some fraction) :
    fraction <+: text := by
  unfold fraction? at h
  split at h
  · next rest =>
    simp only [] at h
    split at h
    · cases h
    · cases h
      exact (List.prefix_cons_inj _).mpr (List.takeWhile_prefix _)
  · cases h

/-! ## Nothing is lost -/

/-- Nothing is ever held back. -/
def held (_ : State) : List Char := []

theorem CodeRule.keeps {nameFollows : Bool} {c : Char} {cs : List Char} {move : Move State}
    (h : CodeRule nameFollows c cs move) : lexer.Keeps held (.code nameFollows) c cs move := by
  have token {kind : TokenKind} {more : List Char} {next : Bool} (hmore : more <+: cs)
      (hkind : kind.isStringPart = false) :
      lexer.Keeps held (.code nameFollows) c cs (.token kind c more (.code next)) :=
    .token hmore rfl rfl rfl (.inr hkind)
  cases h with
  | space => exact token (List.takeWhile_prefix _) rfl
  | preprocessor => exact token (List.takeWhile_prefix _) rfl
  | directive => exact token (List.takeWhile_prefix _) rfl
  | comment => exact token (List.takeWhile_prefix _) rfl
  | operator _ hop => exact token (operatorTail?_isPrefix hop) rfl
  | word =>
    refine token (List.takeWhile_prefix _) ?_
    split
    · rfl
    · exact (ModuleWords.kinds_class _ (ModuleWords.classify_mem_kinds _)).1
  | opening => exact ⟨Nat.zero_le _, rfl, by simp, rfl⟩
  | float _ hf => exact token (append_isPrefix (List.takeWhile_prefix _) (fraction?_isPrefix hf)) rfl
  | integer => exact token (List.takeWhile_prefix _) rfl
  | error => exact token List.nil_prefix rfl

theorem StringRule.keeps {c : Char} {cs : List Char} {move : Move State}
    (h : StringRule c cs move) : lexer.Keeps held .string c cs move := by
  cases h with
  | content => exact .token (List.takeWhile_prefix _) rfl rfl rfl (.inl rfl)
  | doubled _ hd => exact .token (singleton_isPrefix hd) rfl rfl rfl (.inl rfl)
  | closing => exact ⟨Nat.zero_le _, rfl, by simp, rfl⟩

/-- The lexer of module code loses nothing. -/
theorem lossless : lexer.Lossless held where
  start_held := rfl
  start_mode := rfl
  step
    | .code nameFollows, c, cs => ⟨_, rfl, (codeMove_rule nameFollows c cs).keeps⟩
    | .string, c, cs =>
      let ⟨move, hs, hr⟩ := stringMove?_rule c cs
      ⟨move, hs, hr.keeps⟩
  flush_text _ := rfl
  flush_full _ _ h := absurd h List.not_mem_nil
  flush_nested _ := rfl

end Highlight1C.ModuleLexer
