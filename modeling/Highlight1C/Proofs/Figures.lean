import Highlight1C.Proofs.Preferences
import Mathlib.Algebra.GroupWithZero.Nat

/-!
# What figures say

Figures are gathered piece by piece. What they say of a stream as a whole is in
part about its tokens (`Metrics.Counts`): one more token keeps it so, and a
marker changes nothing of it. The rest is about its groups: in a stream whose
groups are well nested, the longest string is the longest group
(`longestString_foldl`), and where spans follow on one another, the bytes of a
group are those between its ends (`extent_of_mem_groups`).

The stream of a source is well formed, so all this holds of the figures that are
kept of a source (`highlightSource_figures`).
-/

namespace Highlight1C

open Text

/-! ## Counts by kind -/

theorem TokenKind.all_rank (k : TokenKind) : all[k.rank]? = some k := by
  cases k <;> rfl

theorem TokenKind.eq_of_rank_eq {j k : TokenKind} (h : j.rank = k.rank) : j = k := by
  have hj := all_rank j
  rw [h, all_rank k] at hj
  exact (Option.some.inj hj).symm

namespace KindCounts

/-- Counts in the order of kinds, with no kind twice. -/
def Sorted (counts : KindCounts) : Prop :=
  counts.Pairwise fun a b => a.1.rank < b.1.rank

theorem count_cons (k : TokenKind) (e : TokenKind × Nat) (counts : KindCounts) :
    count k (e :: counts) = if e.1 = k then e.2 else count k counts := by
  rw [count, List.lookup_cons]
  split
  · next h => rw [if_pos (beq_iff_eq.mp h).symm, Option.getD_some]
  · next h => rw [if_neg (beq_eq_false_iff_ne.mp h).symm, count]

theorem count_eq_zero {k : TokenKind} {counts : KindCounts} (h : ∀ e ∈ counts, e.1 ≠ k) :
    count k counts = 0 := by
  induction counts with
  | nil => rfl
  | cons e counts ih =>
    rw [count_cons, if_neg (h e List.mem_cons_self)]
    exact ih fun e' he' => h e' (List.mem_cons_of_mem e he')

theorem mem_bump {k : TokenKind} {counts : KindCounts} {e : TokenKind × Nat}
    (h : e ∈ bump k counts) : (e.1 = k ∧ 0 < e.2) ∨ e ∈ counts := by
  induction counts with
  | nil =>
    obtain rfl := List.mem_singleton.mp h
    exact .inl ⟨rfl, Nat.one_pos⟩
  | cons first counts ih =>
    unfold bump at h
    split at h
    · next hk =>
      rcases List.mem_cons.mp h with rfl | h
      · exact .inl ⟨hk.symm, Nat.succ_pos _⟩
      · exact .inr (List.mem_cons_of_mem first h)
    split at h
    · rcases List.mem_cons.mp h with rfl | h
      · exact .inl ⟨rfl, Nat.one_pos⟩
      · exact .inr h
    · rcases List.mem_cons.mp h with rfl | h
      · exact .inr List.mem_cons_self
      · exact (ih h).imp_right (List.mem_cons_of_mem first)

theorem Sorted.bump {counts : KindCounts} (h : Sorted counts) (k : TokenKind) :
    Sorted (bump k counts) := by
  induction counts with
  | nil => exact List.pairwise_singleton _ _
  | cons first counts ih =>
    obtain ⟨hfirst, hrest⟩ := List.pairwise_cons.mp h
    unfold KindCounts.bump
    split
    · exact List.pairwise_cons.mpr ⟨hfirst, hrest⟩
    split
    · next hlt =>
      refine List.pairwise_cons.mpr ⟨fun e he => ?_, h⟩
      rcases List.mem_cons.mp he with rfl | he
      · exact hlt
      · exact Nat.lt_trans hlt (hfirst e he)
    · next hne hge =>
      have hgt : first.1.rank < k.rank :=
        Nat.lt_of_le_of_ne (Nat.le_of_not_lt hge) fun heq => hne (TokenKind.eq_of_rank_eq heq).symm
      refine List.pairwise_cons.mpr ⟨fun e he => ?_, ih hrest⟩
      rcases mem_bump he with ⟨rfl, -⟩ | he
      · exact hgt
      · exact hfirst e he

/-- One more of a kind is one more of this kind and none of the others. -/
theorem count_bump {counts : KindCounts} (h : Sorted counts) (k j : TokenKind) :
    count j (bump k counts) = count j counts + if k = j then 1 else 0 := by
  induction counts with
  | nil =>
    rw [bump, count_cons]
    exact (Nat.zero_add _).symm
  | cons first counts ih =>
    obtain ⟨hfirst, hrest⟩ := List.pairwise_cons.mp h
    unfold bump
    split
    · next hk =>
      rw [count_cons, count_cons, hk]
      split <;> rfl
    split
    · next hlt =>
      rw [count_cons]
      split
      · next hk =>
        have hzero : count j (first :: counts) = 0 := by
          refine count_eq_zero fun e he heq => ?_
          have hle : first.1.rank ≤ e.1.rank := by
            rcases List.mem_cons.mp he with rfl | he
            · exact Nat.le_refl _
            · exact Nat.le_of_lt (hfirst e he)
          rw [heq, ← hk] at hle
          exact absurd hlt (Nat.not_lt_of_le hle)
        rw [hzero]
      · rfl
    · next hne _ =>
      rw [count_cons, count_cons, ih hrest]
      split
      · next hj => rw [if_neg (hj ▸ hne), Nat.add_zero]
      · rfl

theorem sum_bump (k : TokenKind) (counts : KindCounts) :
    ((bump k counts).map Prod.snd).sum = (counts.map Prod.snd).sum + 1 := by
  induction counts with
  | nil => rfl
  | cons first counts ih =>
    unfold bump
    split
    · simp only [List.map_cons, List.sum_cons]
      omega
    split
    · simp only [List.map_cons, List.sum_cons]
      omega
    · rw [List.map_cons, List.sum_cons, ih, List.map_cons, List.sum_cons, Nat.add_assoc]

end KindCounts

/-! ## The largest of numbers -/

/-- The largest of numbers, and 0 if there are none. -/
def largest (ns : List Nat) : Nat := ns.max?.getD 0

theorem largest_cons (n : Nat) (ns : List Nat) : largest (n :: ns) = max n (largest ns) := by
  rw [largest, List.max?_cons, largest]
  cases ns.max? with
  | none => exact (Nat.max_zero n).symm
  | some m => rfl

theorem largest_append (ms ns : List Nat) : largest (ms ++ ns) = max (largest ms) (largest ns) := by
  induction ms with
  | nil => exact (Nat.zero_max _).symm
  | cons m ms ih => rw [List.cons_append, largest_cons, ih, largest_cons, Nat.max_assoc]

/-! ## Figures about tokens -/

/-- The bytes of each comment. -/
def commentSizes (ts : List Token) : List Nat :=
  (ts.filter (·.kind == .comment)).map fun t => byteLength t.text

/-- What figures say about tokens, if they are about these tokens. -/
structure Metrics.Counts (ts : List Token) (m : Metrics) : Prop where
  total : m.total = ts.length
  significant : m.significant = ts.countP (·.kind.isSignificant)
  /-- Each kind is counted once, -/
  sorted : m.byKind.Sorted
  /-- if it occurs, -/
  positive : ∀ e ∈ m.byKind, 0 < e.2
  /-- as often as it does. -/
  byKind : ∀ k, m.count k = ts.countP (·.kind == k)
  sum : (m.byKind.map Prod.snd).sum = ts.length
  errors : m.errors = ts.countP (·.kind == .error)
  comments : m.comments = ts.countP (·.kind == .comment)
  longestComment : m.longestComment = largest (commentSizes ts)
  lastLine : m.lastLine = (ts.getLast?.map (·.span.stop.line)).getD 0

namespace Metrics

theorem Counts.empty : Counts [] {} where
  total := rfl
  significant := rfl
  sorted := .nil
  positive _ h := absurd h List.not_mem_nil
  byKind _ := rfl
  sum := rfl
  errors := rfl
  comments := rfl
  longestComment := rfl
  lastLine := rfl

theorem commentSizes_concat (ts : List Token) (t : Token) :
    commentSizes (ts ++ [t]) =
      commentSizes ts ++ if t.kind = .comment then [byteLength t.text] else [] := by
  rw [commentSizes, List.filter_append, List.map_append, ← commentSizes]
  by_cases h : t.kind = .comment <;> simp [h]

theorem countP_kind_concat (ts : List Token) (t : Token) (k : TokenKind) :
    (ts ++ [t]).countP (·.kind == k) = ts.countP (·.kind == k) + if t.kind = k then 1 else 0 := by
  rw [List.countP_append, List.countP_singleton]
  simp only [beq_iff_eq]

theorem ite_succ (p : Prop) [Decidable p] (n : Nat) :
    (if p then n + 1 else n) = n + if p then 1 else 0 := by
  split <;> rfl

/-- One more token. -/
theorem Counts.addToken {ts : List Token} {m : Metrics} (h : Counts ts m) (t : Token) :
    Counts (ts ++ [t]) (m.addToken t) where
  total := by
    rw [List.length_append, ← h.total]
    rfl
  significant := by
    rw [List.countP_append, List.countP_singleton, ← h.significant]
    exact ite_succ _ _
  sorted := h.sorted.bump t.kind
  positive e he := (KindCounts.mem_bump he).elim And.right (h.positive e)
  byKind k := by
    rw [countP_kind_concat, ← h.byKind]
    exact KindCounts.count_bump h.sorted t.kind k
  sum := by
    rw [List.length_append, ← h.sum]
    exact KindCounts.sum_bump t.kind m.byKind
  errors := by
    rw [countP_kind_concat, ← h.errors]
    exact ite_succ _ _
  comments := by
    rw [countP_kind_concat, ← h.comments]
    exact ite_succ _ _
  longestComment := by
    rw [commentSizes_concat, largest_append, ← h.longestComment]
    show (if t.kind = .comment then _ else _) = _
    split
    · rfl
    · exact (Nat.max_zero _).symm
  lastLine := by
    rw [List.getLast?_concat]
    rfl

/-- A marker says nothing about tokens. -/
theorem Counts.addMarker {ts : List Token} {m : Metrics} (h : Counts ts m) {p : Piece Token}
    (hp : p.token? = none) : Counts ts (m.add p) := by
  cases p with
  | token t => cases hp
  | beginGroup => exact { h with }
  | endGroup =>
    rw [Metrics.add]
    split
    · exact { h with }
    · exact h

/-- So figures that are gathered from a stream count its tokens. -/
theorem Counts.foldl {ts : List Token} {m : Metrics} (h : Counts ts m) (ps : List (Piece Token)) :
    Counts (ts ++ TokenStream.tokens ⟨ps⟩) (ps.foldl Metrics.add m) := by
  induction ps generalizing ts m with
  | nil => exact (List.append_nil ts).symm ▸ h
  | cons p ps ih =>
    rw [List.foldl_cons]
    cases p with
    | token t =>
      have hrest := ih (h.addToken t)
      rwa [List.append_assoc] at hrest
    | beginGroup => exact ih (h.addMarker rfl)
    | endGroup => exact ih (h.addMarker rfl)

theorem counts_ofStream (s : TokenStream) : Counts s.tokens (.ofStream s) :=
  Counts.empty.foldl s.pieces

end Metrics

/-- Tokens are significant, layout or comments. -/
theorem countP_isSignificant (ts : List Token) :
    ts.countP (·.kind.isSignificant) + ts.countP (·.kind == .space) +
      ts.countP (·.kind == .comment) = ts.length := by
  have hkind (k : TokenKind) : ((if k.isSignificant then 1 else 0) + (if k == .space then 1 else 0) +
      if k == .comment then 1 else 0) = 1 := by
    cases k <;> rfl
  induction ts with
  | nil => rfl
  | cons t ts ih =>
    have hkind := hkind t.kind
    simp only [List.countP_cons, List.length_cons]
    omega

/-! ## Figures about groups -/

/-- The tokens of the open group, up to the marker that closes it. -/
def groupTokens : List (Piece Token) → List Token
  | [] => []
  | .token t :: ps => t :: groupTokens ps
  | .beginGroup :: ps => groupTokens ps
  | .endGroup :: _ => []

/-- For each marker that opens a group, the tokens of the group. -/
def groupsOf : List (Piece Token) → List (List Token)
  | [] => []
  | .beginGroup :: ps => groupTokens ps :: groupsOf ps
  | .token _ :: ps => groupsOf ps
  | .endGroup :: ps => groupsOf ps

/-- The groups of a stream, each with its tokens. -/
def TokenStream.groups (s : TokenStream) : List (List Token) := groupsOf s.pieces

/-- The bytes from where the first token of a group starts to where its last one
ends. -/
def extent (group : List Token) : Nat :=
  match group.head?, group.getLast? with
  | some first, some last => last.span.stop.offset - first.span.start.offset
  | _, _ => 0

/-- The bytes of all tokens of a group. -/
def groupSize (group : List Token) : Nat :=
  (group.map fun t => byteLength t.text).sum

theorem groupSize_cons (t : Token) (group : List Token) :
    groupSize (t :: group) = byteLength t.text + groupSize group := by
  rw [groupSize, List.map_cons, List.sum_cons, groupSize]

theorem Metrics.strings_foldl (ps : List (Piece Token)) (m : Metrics) :
    (ps.foldl Metrics.add m).strings = m.strings + TokenStream.groupCount ⟨ps⟩ := by
  induction ps generalizing m with
  | nil => rfl
  | cons p ps ih =>
    rw [List.foldl_cons, ih, TokenStream.groupCount, TokenStream.groupCount, List.countP_cons]
    cases p with
    | token t => rfl
    | beginGroup =>
      simp only [Metrics.add, if_true]
      omega
    | endGroup =>
      have hstrings : (m.add .endGroup).strings = m.strings := by
        rw [Metrics.add]
        split <;> rfl
      rw [hstrings]
      rfl

/-- The sizes of the groups that are closed among pieces, where so many bytes of an
open one have been read before. -/
def closedSizes (opened : Option Nat) (ps : List (Piece Token)) : List Nat :=
  (opened.map (· + groupSize (groupTokens ps))).toList ++ (groupsOf ps).map groupSize

theorem closedSizes_token (opened : Option Nat) (t : Token) (ps : List (Piece Token)) :
    closedSizes opened (.token t :: ps) =
      closedSizes (opened.map (· + byteLength t.text)) ps := by
  have hsize (n : Nat) : n + groupSize (groupTokens (.token t :: ps)) =
      n + byteLength t.text + groupSize (groupTokens ps) := by
    rw [groupTokens, groupSize_cons, Nat.add_assoc]
  cases opened with
  | none => rfl
  | some n =>
    show (n + groupSize (groupTokens (.token t :: ps))) :: _ = _
    rw [hsize]
    rfl

theorem closedSizes_beginGroup (ps : List (Piece Token)) :
    closedSizes none (.beginGroup :: ps) = closedSizes (some 0) ps := by
  show groupSize (groupTokens ps) :: _ = (0 + groupSize (groupTokens ps)) :: _
  rw [Nat.zero_add]
  rfl

theorem closedSizes_endGroup (n : Nat) (ps : List (Piece Token)) :
    closedSizes (some n) (.endGroup :: ps) = n :: closedSizes none ps := rfl

theorem Metrics.add_endGroup {m : Metrics} {n : Nat} (h : m.openString = some n) :
    m.add .endGroup = { m with longestString := max m.longestString n, openString := none } := by
  rw [add, h]

/-- Where groups are well nested, the longest string is the longest group, what
is already there of an open one included. -/
theorem Metrics.longestString_foldl {ps : List (Piece Token)} {index : Nat} {m : Metrics}
    (hnested : TokenStream.nestingFrom index m.openString.isSome ps = none) :
    (ps.foldl Metrics.add m).longestString =
      max m.longestString (largest (closedSizes m.openString ps)) := by
  induction ps generalizing index m with
  | nil =>
    cases hopen : m.openString with
    | none => exact (Nat.max_zero _).symm
    | some n =>
      rw [hopen] at hnested
      cases hnested
  | cons p ps ih =>
    rw [List.foldl_cons]
    -- a marker that does not fit what is open is not well nested
    cases p with
    | token t =>
      have hrest : TokenStream.nestingFrom (index + 1) (m.addToken t).openString.isSome ps = none := by
        rw [TokenStream.nestingFrom] at hnested
        split at hnested
        · cases hnested
        · rw [addToken, Option.isSome_map]
          exact hnested
      rw [add, ih hrest, closedSizes_token]
      rfl
    | beginGroup =>
      cases hopen : m.openString with
      | some n =>
        rw [hopen] at hnested
        cases hnested
      | none =>
        rw [hopen] at hnested
        rw [closedSizes_beginGroup]
        exact ih hnested
    | endGroup =>
      cases hopen : m.openString with
      | none =>
        rw [hopen] at hnested
        cases hnested
      | some n =>
        rw [hopen] at hnested
        rw [add_endGroup hopen, closedSizes_endGroup, largest_cons, ← Nat.max_assoc]
        exact ih hnested

/-! ## Groups in their places -/

/-- In a list of tokens whose spans follow on one another, the first starts where
it should and covers its text, and the others follow on it. -/
theorem TokenStream.placingFrom_cons {offset : Nat} {t : Token} {ts : List Token}
    (h : placingFrom offset (t :: ts) = .ok none) :
    t.span.start.offset = offset ∧ t.span.stop.offset = offset + byteLength t.text ∧
      placingFrom t.span.stop.offset ts = .ok none := by
  rw [placingFrom] at h
  split at h
  · cases h
  next hstart =>
  have hstart := Decidable.not_not.mp hstart
  obtain ⟨covers, hlength, h⟩ := bind_eq_ok h
  split at h
  · cases h
  next hcovers =>
  have hcovers := Decidable.not_not.mp hcovers
  rw [Span.length] at hlength
  split at hlength
  · next hle =>
    cases hlength
    exact ⟨hstart, by omega, h⟩
  · cases hlength

/-- The last of such tokens ends where all their bytes are passed. -/
theorem stop_of_placingFrom {offset : Nat} {group after : List Token}
    (h : TokenStream.placingFrom offset (group ++ after) = .ok none) {last : Token}
    (hlast : group.getLast? = some last) : last.span.stop.offset = offset + groupSize group := by
  induction group generalizing offset with
  | nil => cases hlast
  | cons first group ih =>
    obtain ⟨-, hstop, hrest⟩ := TokenStream.placingFrom_cons h
    rw [groupSize_cons, ← Nat.add_assoc, ← hstop]
    cases group with
    | nil =>
      cases hlast
      rfl
    | cons second group =>
      rw [List.getLast?_cons_cons] at hlast
      exact ih hrest hlast

theorem extent_of_placingFrom {offset : Nat} {group after : List Token}
    (h : TokenStream.placingFrom offset (group ++ after) = .ok none) :
    extent group = groupSize group := by
  cases group with
  | nil => rfl
  | cons first group =>
    obtain ⟨hstart, -, -⟩ := TokenStream.placingFrom_cons h
    have hlast := List.getLast?_eq_some_getLast (List.cons_ne_nil first group)
    have hstop := stop_of_placingFrom h hlast
    rw [extent, List.head?_cons, hlast]
    show _ - first.span.start.offset = _
    rw [hstop, hstart, Nat.add_sub_cancel_left]

/-- The tokens of an open group come first. -/
theorem groupTokens_prefix (ps : List (Piece Token)) :
    groupTokens ps <+: TokenStream.tokens ⟨ps⟩ := by
  induction ps with
  | nil => exact List.prefix_refl _
  | cons p ps ih =>
    cases p with
    | token t => exact (List.prefix_cons_inj t).mpr ih
    | beginGroup => exact ih
    | endGroup => exact List.nil_prefix

/-- Where spans follow on one another, groups have the bytes between their ends. -/
theorem extent_of_mem_groups {offset : Nat} {ps : List (Piece Token)}
    (h : TokenStream.placingFrom offset (TokenStream.tokens ⟨ps⟩) = .ok none) {group : List Token}
    (hgroup : group ∈ groupsOf ps) : extent group = groupSize group := by
  induction ps generalizing offset with
  | nil => cases hgroup
  | cons p ps ih =>
    cases p with
    | token t => exact ih (TokenStream.placingFrom_cons h).2.2 hgroup
    | endGroup => exact ih h hgroup
    | beginGroup =>
      rcases List.mem_cons.mp hgroup with rfl | hgroup
      · obtain ⟨after, hafter⟩ := groupTokens_prefix ps
        rw [TokenStream.tokens_beginGroup, ← hafter] at h
        exact extent_of_placingFrom h
      · exact ih h hgroup

/-- The longest string of a stream with well nested groups whose spans follow on
one another. -/
theorem Metrics.longestString_ofStream {s : TokenStream} (hnesting : s.nesting? = none)
    (hplacing : s.placing? = .ok none) :
    (ofStream s).longestString = largest (s.groups.map extent) := by
  have hsizes : s.groups.map extent = (groupsOf s.pieces).map groupSize :=
    List.map_congr_left fun group hgroup => extent_of_mem_groups hplacing hgroup
  have hfold := longestString_foldl (m := {}) hnesting
  rw [hsizes]
  exact hfold.trans (Nat.zero_max _)

/-! ## The figures of a source -/

/-- The last token of a source ends on the last line of the source. -/
theorem lastLine_stream (language : Language) (source : List Char) :
    ((language.stream source).tokens.getLast?.map (·.span.stop.line)).getD 0 =
      if source = [] then 0 else 1 + source.count '\n' := by
  split
  · next hempty =>
    subst hempty
    cases language <;> decide +kernel
  · next hne =>
    rcases List.eq_nil_or_concat (language.stream source).tokens with hnil | ⟨before, last, hlast⟩
    · have htext := text_stream language source
      rw [TokenStream.text, hnil] at htext
      exact absurd htext.symm hne
    · rw [List.concat_eq_append] at hlast
      obtain ⟨hplaced, hsource⟩ := placed_of_tokens_eq hlast
      rw [List.flatMap_nil, List.append_nil] at hsource
      rw [hlast, List.getLast?_concat, Option.map_some, Option.getD_some, hplaced, ← hsource]
      rfl

/-- The figures of a source of at most 2³² − 2 characters, whatever is logged on
the way. If they are kept, they are those that are gathered from the stream
afterwards. Kept or not, they agree with the stream: the counts by kind are those
of its tokens, are not zero and add up to the number of tokens; what is
significant are all tokens but layout and comments; there is a string for each
marker that opens a group; the longest comment is that of most bytes, and the
longest string the group with most bytes from where its first token starts to
where its last one ends. The last line is that of the source, if there is
anything in it. -/
theorem highlightSource_figures (language : Language) (source : List Char)
    (hsize : source.length ≤ sourceBound) (preferences : ScannerPreferences) (logging : Logging) :
    ∃ highlight logging' m,
      highlightSource language source preferences logging = .ok (.ok highlight, logging') ∧
      highlight.metrics = (if preferences.collectMetrics then some m else none) ∧
      m = .ofStream highlight.tokens ∧
      m.total = highlight.tokens.length ∧
      (∀ k, m.count k = highlight.tokens.countKind k) ∧
      (∀ e ∈ m.byKind, 0 < e.2) ∧
      (m.byKind.map Prod.snd).sum = m.total ∧
      m.significant + m.count .space + m.count .comment = m.total ∧
      m.errors = highlight.tokens.countKind .error ∧
      m.comments = highlight.tokens.countKind .comment ∧
      m.strings = highlight.tokens.groupCount ∧
      m.longestComment = largest (commentSizes highlight.tokens.tokens) ∧
      m.longestString = largest (highlight.tokens.groups.map extent) ∧
      m.lastLine = if source = [] then 0 else 1 + source.count '\n' := by
  obtain ⟨highlight, logging', hrun, -⟩ := highlightSource_eq hsize preferences logging
  obtain rfl := Except.ok.inj (highlightSource_eq_ok hrun).1
  have h := Metrics.counts_ofStream (language.stream source)
  have hstrings := Metrics.strings_foldl (language.stream source).pieces {}
  have hlongest := Metrics.longestString_ofStream (nesting?_stream language source)
    (placing?_stream language source)
  refine ⟨_, logging', .ofStream (language.stream source), hrun, rfl, rfl, h.total, h.byKind,
    h.positive, h.sum.trans h.total.symm, ?_, h.errors, h.comments, ?_, h.longestComment, hlongest,
    h.lastLine.trans (lastLine_stream language source)⟩
  · rw [h.significant, h.byKind, h.byKind, h.total]
    exact countP_isSignificant _
  · exact hstrings.trans (Nat.zero_add _)

/-- A module with a comment, a string and a character that no rule recognises. -/
theorem highlightSource_figures_string :
    ['/', '/', 'ж', '\n', '"', 'я', '"', '€'].length ≤ sourceBound ∧
    ∃ highlight logging' m,
      highlightSource .module ['/', '/', 'ж', '\n', '"', 'я', '"', '€'] { collectMetrics := true }
        .off = .ok (.ok highlight, logging') ∧
      highlight.metrics = some m ∧ m.total = 6 ∧ m.significant = 4 ∧ m.count .delimiter = 2 ∧
      m.errors = 1 ∧ m.strings = 1 ∧ m.longestComment = 4 ∧ m.longestString = 4 ∧
      m.lastLine = 2 := by
  have hsize : ['/', '/', 'ж', '\n', '"', 'я', '"', '€'].length ≤ sourceBound := by decide
  obtain ⟨highlight, logging', m, hrun, hmetrics, hm, -⟩ :=
    highlightSource_figures .module _ hsize { collectMetrics := true } .off
  refine ⟨hsize, highlight, logging', m, hrun, hmetrics, ?_⟩
  obtain rfl := Except.ok.inj (highlightSource_eq_ok hrun).1
  subst hm
  decide +kernel

end Highlight1C
