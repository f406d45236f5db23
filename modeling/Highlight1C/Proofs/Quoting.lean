import Highlight1C.Proofs.Groups

/-!
# Quoted texts

A text is written as a string between quotes with each quote in it doubled,
and in a query each backslash too (`Language.quoted`). Whatever the text is,
the string ends at the quote behind it, and its tokens mean the text
(`tokenize_quoted`), unless the quote behind it is doubled as well by what
comes next.

The induction is on the text. It goes along with what has been read of it but
not been written yet: the content held back, in a query, and a run of content
that goes on, in module code.
-/

namespace Highlight1C

open Text

namespace Language

/-- The quotes of a language. -/
def IsQuote : Language → Char → Prop
  | .module, quote => quote = ModuleLexer.quote
  | .query, quote => QueryLexer.isQuote quote = true

/-- A text as it is written between quotes. -/
def quoted : Language → Char → List Char → List Char
  | .module, quote, text => double quote text
  | .query, quote, text => double '\\' (double quote text)

/-- The character that is doubled by a token of its own. -/
def escaped : Language → Char → Char
  | .module, quote => quote
  | .query, _ => '\\'

/-- What a token of a string that `quote` closes stands for. -/
def meaning (language : Language) (quote : Char) (l : Lexeme) : List Char :=
  if l.kind = .char then [language.escaped quote]
  else match language with
  | .module => l.text
  | .query => undouble quote l.text

/-- Tokens of a quoted text: content, and doubled characters. -/
def Quotes (language : Language) (quote : Char) (body : List Lexeme) : Prop :=
  ∀ l ∈ body, l.kind = .content ∨
    l.kind = .char ∧ l.text = [language.escaped quote, language.escaped quote]

/-- Pieces that go on with a string behind its opening, finish it, and go on
with `tail` behind it, where what is left of the string means `text`. -/
def Reads (language : Language) (quote : Char) (text tail : List Char)
    (pieces : List (Piece Lexeme)) : Prop :=
  ∃ body after, language.Quotes quote body ∧ body.flatMap (language.meaning quote) = text ∧
    textOf after = tail ∧
    pieces = (body ++ [(⟨.delimiter, [quote]⟩ : Lexeme)]).map .token ++ .endGroup :: after

variable {language : Language} {quote : Char} {text tail : List Char}
  {pieces : List (Piece Lexeme)}

theorem Reads.closing {after : List (Piece Lexeme)} (h : textOf after = tail) :
    language.Reads quote [] tail (.token ⟨.delimiter, [quote]⟩ :: .endGroup :: after) :=
  ⟨[], after, by simp [Quotes], rfl, h, rfl⟩

/-- More of the string stands in front. -/
theorem Reads.append (h : language.Reads quote text tail pieces) {body : List Lexeme}
    (hbody : language.Quotes quote body) :
    language.Reads quote (body.flatMap (language.meaning quote) ++ text) tail
      (body.map .token ++ pieces) := by
  obtain ⟨body', after, hbody', htext, htail, rfl⟩ := h
  refine ⟨body ++ body', after, List.forall_mem_append.mpr ⟨hbody, hbody'⟩, ?_, htail, ?_⟩
  · rw [List.flatMap_append, htext]
  · simp

/-- A doubled character stands in front. -/
theorem Reads.cons_char (h : language.Reads quote text tail pieces) {c : Char}
    (hc : c = language.escaped quote) :
    language.Reads quote (c :: text) tail (.token ⟨.char, [c, c]⟩ :: pieces) := by
  have hquotes : language.Quotes quote [⟨.char, [c, c]⟩] := by
    intro l hl
    rw [List.mem_singleton.mp hl, hc]
    exact .inr ⟨rfl, rfl⟩
  subst hc
  exact h.append hquotes

end Language

/-! ## Module code -/

namespace ModuleLexer

open Highlight1C.Language (Reads Quotes)

/-- Characters that are not quotes are one token of content, before a quote. -/
theorem eventsFrom_run {run rest : List Char} (hrun : quote ∉ run)
    (hrest : rest.head? = some quote) :
    ∃ body, Quotes .module quote body ∧ body.flatMap (Language.module.meaning quote) = run ∧
      lexer.eventsFrom .string (run ++ rest) = body.map .token ++ lexer.eventsFrom .string rest := by
  cases run with
  | nil => exact ⟨[], by simp [Quotes], rfl, rfl⟩
  | cons c run =>
    simp only [List.mem_cons, not_or] at hrun
    have htake : (run ++ rest).takeWhile (· != quote) = run := by
      refine takeWhile_append_of_stop (fun d hd => ?_) (fun d hd => ?_)
      · exact bne_iff_ne.mpr fun hdq => hrun.2 (hdq ▸ hd)
      · cases hrest.symm.trans hd
        exact bne_self_eq_false quote
    refine ⟨[⟨.content, c :: run⟩], by simp [Quotes], by simp [Language.meaning], ?_⟩
    have hcontent : (c != quote) = true := bne_iff_ne.mpr (Ne.symm hrun.1)
    have hstep : lexer.step .string c (run ++ rest) = some (.token .content c run .string) := by
      show stringMove? c (run ++ rest) = _
      simp only [stringMove?, hcontent, htake, if_true]
    rw [List.cons_append, lexer.eventsFrom_cons hstep]
    simp [Move.token]

theorem eventsFrom_doubled (rest : List Char) :
    lexer.eventsFrom .string (quote :: quote :: rest) =
      .token ⟨.char, [quote, quote]⟩ :: lexer.eventsFrom .string rest := by
  rw [lexer.eventsFrom_cons rfl]
  rfl

theorem eventsFrom_closing {tail : List Char} (htail : tail.head? ≠ some quote) :
    lexer.eventsFrom .string (quote :: tail) =
      .token ⟨.delimiter, [quote]⟩ :: .endGroup :: lexer.eventsFrom (.code false) tail := by
  have hstep : lexer.step .string quote tail =
      some ⟨[.token ⟨.delimiter, [quote]⟩, .endGroup], 0, .code false⟩ := by
    show stringMove? quote tail = _
    simp [stringMove?, htail]
  rw [lexer.eventsFrom_cons hstep]
  rfl

/-- A quoted text is read back, behind a run of content. -/
theorem reads {tail : List Char} (htail : tail.head? ≠ some quote) (text run : List Char)
    (hrun : quote ∉ run) :
    Reads .module quote (run ++ text) tail
      (lexer.eventsFrom .string (run ++ (double quote text ++ quote :: tail))) := by
  induction text generalizing run with
  | nil =>
    have hhead : (quote :: tail).head? = some quote := rfl
    obtain ⟨body, hbody, hmeaning, hevents⟩ := eventsFrom_run hrun hhead
    have hclosing : Reads .module quote [] tail (lexer.eventsFrom .string (quote :: tail)) := by
      rw [eventsFrom_closing htail]
      exact .closing (lossless.textOf_eventsFrom _ _)
    rw [double_nil, List.nil_append, hevents, ← hmeaning]
    exact hclosing.append hbody
  | cons c text ih =>
    by_cases hc : c = quote
    · have hhead : (quote :: quote :: (double quote text ++ quote :: tail)).head? = some quote := rfl
      obtain ⟨body, hbody, hmeaning, hevents⟩ := eventsFrom_run hrun hhead
      have hchar : Reads .module quote (quote :: text) tail
          (lexer.eventsFrom .string (quote :: quote :: (double quote text ++ quote :: tail))) := by
        rw [eventsFrom_doubled]
        exact (ih [] (by simp)).cons_char rfl
      rw [hc, double_cons_self, List.cons_append, List.cons_append, hevents, ← hmeaning]
      exact hchar.append hbody
    · have hmore := ih (run ++ [c]) (by simp [hrun, Ne.symm hc])
      rw [List.append_assoc, List.append_assoc] at hmore
      rwa [double_cons_of_ne hc]

theorem eventsFrom_opening (nameFollows : Bool) (cs : List Char) :
    lexer.eventsFrom (.code nameFollows) (quote :: cs) =
      .beginGroup :: .token ⟨.delimiter, [quote]⟩ :: lexer.eventsFrom .string cs := by
  have hstep : lexer.step (.code nameFollows) quote cs =
      some ⟨[.beginGroup, .token ⟨.delimiter, [quote]⟩], 0, .string⟩ := by
    cases cs <;> rfl
  exact lexer.eventsFrom_cons hstep

end ModuleLexer

/-! ## Queries -/

namespace QueryLexer

open Highlight1C.Language (Reads Quotes)

variable {nameExpected : Bool} {quote : Char} {held : List Char}

theorem quotes_heldLexemes (held : List Char) : Quotes .query quote (heldLexemes held) := by
  unfold heldLexemes
  split <;> simp [Quotes]

/-- Content held back means what was doubled in it. -/
theorem meaning_heldLexemes (text : List Char) :
    (heldLexemes (double quote text).reverse).flatMap (Language.query.meaning quote) = text := by
  have h := undouble_double quote text
  unfold heldLexemes
  split
  · next hnil =>
    rw [List.reverse_eq_nil_iff.mp hnil] at h
    exact h
  · simp [Language.meaning, h]

/-- A character that is neither the quote nor a backslash is held back. A run
of such characters is taken at once, with the same result. -/
theorem eventsFrom_other {c : Char} (hquote : c ≠ quote) (hback : c ≠ '\\') (cs : List Char) :
    lexer.eventsFrom (.string nameExpected quote held) (c :: cs) =
      lexer.eventsFrom (.string nameExpected quote (c :: held)) cs := by
  have hrun (d : Char) (ds held : List Char) (hd : isPlain d = true) :
      lexer.eventsFrom (.string nameExpected quote held) (d :: ds) =
        lexer.eventsFrom (.string nameExpected quote ((ds.takeWhile isPlain).reverse ++ d :: held))
          (ds.drop (ds.takeWhile isPlain).length) := by
    have hstep : lexer.step (.string nameExpected quote held) d ds =
        some ⟨[], (ds.takeWhile isPlain).length,
          .string nameExpected quote ((ds.takeWhile isPlain).reverse ++ d :: held)⟩ := if_pos hd
    exact lexer.eventsFrom_cons hstep
  by_cases hc : isPlain c = true
  · rw [hrun c cs held hc]
    cases cs with
    | nil => rfl
    | cons d ds =>
      by_cases hd : isPlain d = true
      · rw [hrun d ds (c :: held) hd, List.takeWhile_cons_of_pos hd]
        simp
      · rw [List.takeWhile_cons_of_neg hd]
        rfl
  · have hforeign : isQuote c = true := by simpa [isPlain, hback] using hc
    have hstep : lexer.step (.string nameExpected quote held) c cs =
        some ⟨[], 0, .string nameExpected quote (c :: held)⟩ :=
      (if_neg hc).trans ((if_neg hquote).trans (if_pos hforeign))
    exact lexer.eventsFrom_cons hstep

theorem not_isPlain_quote (hquote : isQuote quote = true) : ¬ isPlain quote = true := by
  simp [isPlain, hquote]

theorem eventsFrom_doubled (hquote : isQuote quote = true) (cs : List Char) :
    lexer.eventsFrom (.string nameExpected quote held) (quote :: quote :: cs) =
      lexer.eventsFrom (.string nameExpected quote (quote :: quote :: held)) cs := by
  have hstep : lexer.step (.string nameExpected quote held) quote (quote :: cs) =
      some ⟨[], 1, .string nameExpected quote (quote :: quote :: held)⟩ :=
    (if_neg (not_isPlain_quote hquote)).trans ((if_pos rfl).trans (if_pos rfl))
  exact lexer.eventsFrom_cons hstep

theorem eventsFrom_closing (hquote : isQuote quote = true) {tail : List Char}
    (htail : tail.head? ≠ some quote) :
    lexer.eventsFrom (.string nameExpected quote held) (quote :: tail) =
      (heldLexemes held).map .token ++ .token ⟨.delimiter, [quote]⟩ :: .endGroup ::
        lexer.eventsFrom (.code nameExpected) tail := by
  have hstep : lexer.step (.string nameExpected quote held) quote tail =
      some ⟨release held ++ [.token ⟨.delimiter, [quote]⟩, .endGroup], 0, .code nameExpected⟩ :=
    (if_neg (not_isPlain_quote hquote)).trans ((if_pos rfl).trans (if_neg htail))
  rw [lexer.eventsFrom_cons hstep, release_eq]
  simp

/-- A doubled backslash is an escape. -/
theorem eventsFrom_backslash (hquote : isQuote quote = true) (cs : List Char) :
    lexer.eventsFrom (.string nameExpected quote held) ('\\' :: '\\' :: cs) =
      (heldLexemes held).map .token ++ .token ⟨.char, ['\\', '\\']⟩ ::
        lexer.eventsFrom (.string nameExpected quote []) cs := by
  have hstep : lexer.step (.string nameExpected quote held) '\\' ('\\' :: cs) =
      some ⟨release held ++ [.token ⟨.char, ['\\', '\\']⟩], 1, .string nameExpected quote []⟩ :=
    (if_neg (quote_ne_backslash hquote).symm).trans rfl
  rw [lexer.eventsFrom_cons hstep, release_eq]
  simp

/-- A quoted text is read back, behind content held back. -/
theorem reads (hquote : isQuote quote = true) {tail : List Char}
    (htail : tail.head? ≠ some quote) (text behind : List Char) :
    Reads .query quote (behind ++ text) tail
      (lexer.eventsFrom (.string nameExpected quote (double quote behind).reverse)
        (Language.query.quoted quote text ++ quote :: tail)) := by
  have hback := quote_ne_backslash hquote
  induction text generalizing behind with
  | nil =>
    have hclosing : Reads .query quote [] tail
        (.token ⟨.delimiter, [quote]⟩ :: .endGroup :: lexer.eventsFrom (.code nameExpected) tail) :=
      .closing (lossless.textOf_eventsFrom _ _)
    have hreads := hclosing.append (quotes_heldLexemes (double quote behind).reverse)
    rw [meaning_heldLexemes] at hreads
    rwa [Language.quoted, double_nil, double_nil, List.nil_append, eventsFrom_closing hquote htail]
  | cons c text ih =>
    rw [Language.quoted] at ih ⊢
    by_cases hc : c = quote
    · have hmore := ih (behind ++ [quote])
      rw [double_append, double_singleton_self, List.reverse_append, List.append_assoc] at hmore
      rw [hc, double_cons_self, double_cons_of_ne hback, double_cons_of_ne hback, List.cons_append,
        List.cons_append, eventsFrom_doubled hquote]
      exact hmore
    rw [double_cons_of_ne hc]
    by_cases hslash : c = '\\'
    · have hreads := ((ih []).cons_char (c := '\\') rfl).append
        (quotes_heldLexemes (double quote behind).reverse)
      rw [meaning_heldLexemes] at hreads
      rw [hslash, double_cons_self, List.cons_append, List.cons_append, eventsFrom_backslash hquote]
      exact hreads
    · have hmore := ih (behind ++ [c])
      have hnot : quote ∉ [c] := by simpa using Ne.symm hc
      rw [double_append, double_of_not_mem hnot, List.reverse_append, List.append_assoc] at hmore
      rw [double_cons_of_ne hslash, List.cons_append, eventsFrom_other hc hslash]
      exact hmore

theorem eventsFrom_opening (hquote : isQuote quote = true) (cs : List Char) :
    lexer.eventsFrom (.code nameExpected) (quote :: cs) =
      .beginGroup :: .token ⟨.delimiter, [quote]⟩ ::
        lexer.eventsFrom (.string nameExpected quote []) cs := by
  have hstep : lexer.step (.code nameExpected) quote cs =
      some (openingMove nameExpected [] quote) := by
    simp only [isQuote, quotes, List.contains_iff_mem, List.mem_cons, List.not_mem_nil,
      or_false] at hquote
    rcases hquote with rfl | rfl | rfl <;> rfl
  exact lexer.eventsFrom_cons hstep

end QueryLexer

/-! ## Both languages -/

/-- A quoted text begins with the group of a string that means it. -/
theorem Language.reads_events {quote : Char} {tail : List Char} : {language : Language} →
    language.IsQuote quote → tail.head? ≠ some quote → (text : List Char) →
    ∃ pieces, language.events (quote :: language.quoted quote text ++ quote :: tail) =
        .beginGroup :: .token ⟨.delimiter, [quote]⟩ :: pieces ∧
      language.Reads quote text tail pieces
  | .module, hquote, htail, text => by
    cases hquote
    exact ⟨_, ModuleLexer.eventsFrom_opening false _, ModuleLexer.reads htail text [] (by simp)⟩
  | .query, hquote, htail, text =>
    ⟨_, QueryLexer.eventsFrom_opening hquote _, QueryLexer.reads hquote htail text []⟩

/-- A text that is written as a string is read back. Let `quote` be a quote
of the language, and let what comes behind the string not begin with it. Then
the first pieces are the group of the string: its quotes, and between them
content and doubled characters, whose texts are what was written, and which
mean the text. -/
theorem tokenize_quoted (language : Language) (quote : Char) (text tail : List Char)
    (hquote : language.IsQuote quote) (htail : tail.head? ≠ some quote)
    (hsize : (quote :: language.quoted quote text ++ quote :: tail).length ≤ sourceBound) :
    ∃ (stream : TokenStream) (body : List Lexeme) (after : List (Piece Lexeme)),
      tokenize language (quote :: language.quoted quote text ++ quote :: tail) =
        .ok (.ok stream) ∧
      stream.bare = .beginGroup :: .token ⟨.delimiter, [quote]⟩ :: body.map .token ++
        .token ⟨.delimiter, [quote]⟩ :: .endGroup :: after ∧
      textOf after = tail ∧
      body.flatMap (·.text) = language.quoted quote text ∧
      (∀ l ∈ body, l.kind = .content ∨
        l.kind = .char ∧ l.text = [language.escaped quote, language.escaped quote]) ∧
      body.flatMap (language.meaning quote) = text := by
  obtain ⟨_, hevents, body, after, hbody, hmeaning, hafter, rfl⟩ :=
    Language.reads_events hquote htail text
  refine ⟨_, body, after, tokenize_eq hsize, ?_, hafter, ?_, hbody, hmeaning⟩
  · rw [language.bare_stream, hevents]
    simp
  · -- what is left of the source, without the quotes and the tail
    have htext := language.textOf_events (quote :: language.quoted quote text ++ quote :: tail)
    rw [hevents] at htext
    simp only [textOf_beginGroup, textOf_token, textOf_append, textOf_endGroup, textOf_tokens,
      List.flatMap_append, hafter] at htext
    simpa using htext

/-- A text with all three quotes, an escape and a run of quotes in it, that
ends in a backslash. -/
theorem tokenize_quoted_apostrophe :
    ∃ (stream : TokenStream) (body : List Lexeme) (after : List (Piece Lexeme)),
      tokenize .query "'''`\"\\\\n''''\\\\' x".toList = .ok (.ok stream) ∧
      stream.bare = .beginGroup :: .token ⟨.delimiter, ['\x27']⟩ :: body.map .token ++
        .token ⟨.delimiter, ['\x27']⟩ :: .endGroup :: after ∧
      body.flatMap (Language.query.meaning '\x27') =
        ['\x27', '\x60', '\x22', '\\', 'n', '\x27', '\x27', '\\'] := by
  obtain ⟨stream, body, after, hstream, hbare, -, -, -, hmeaning⟩ :=
    tokenize_quoted .query '\x27' ['\x27', '\x60', '\x22', '\\', 'n', '\x27', '\x27', '\\']
      [' ', 'x'] rfl (by decide) (by decide)
  exact ⟨stream, body, after, hstream, hbare, hmeaning⟩

end Highlight1C
