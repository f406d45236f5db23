import Highlight1C.Proofs.Lines
import Highlight1C.Source.Cursor

/-!
# What a cursor does

A cursor that has passed a part of its input stands in the position after that
part, in front of the rest (`Cursor.between`). From there each request is
answered from the rest, and what it reads is the beginning of the rest:

* `bump_between`, `take_between`, `takeWhile_between`, `takeLine_between`: what
  the requests that read answer, and where they leave the cursor;
* `run_between`: any request leaves the cursor behind what it reads, and
  `fault_cases`: a request that fails reads nothing, unless it reads under a condition;
* `run_keeps`: so it is after any sequence of requests, failed ones among them.

All this is for an input of at most `sourceBound` characters, in which no count
leaves its width: there a request fails only for an offset that is no boundary
between characters, for a span that runs backwards, or for a condition that has no
answer. The last of these is the one failure that leaves the cursor moved
(`moved_by_failure`).
-/

namespace Highlight1C

/-! ## Boundaries between characters -/

namespace Text

/-- A byte offset lies between two characters of a text, or at one of its
ends. -/
def IsBoundary (text : List Char) (n : Nat) : Prop :=
  ∃ a b, text = a ++ b ∧ byteLength a = n

theorem IsBoundary.le {text : List Char} {n : Nat} (h : IsBoundary text n) : n ≤ byteLength text := by
  obtain ⟨a, b, rfl, rfl⟩ := h
  rw [byteLength_append]
  omega

theorem eq_nil_of_byteLength {text : List Char} (h : byteLength text = 0) : text = [] := by
  cases text with
  | nil => rfl
  | cons c cs =>
    have := c.utf8Size_pos
    rw [byteLength_cons] at h
    omega

/-- An offset behind a first part is one of what is left. -/
theorem isBoundary_append (a b : List Char) (n : Nat) :
    IsBoundary (a ++ b) (byteLength a + n) ↔ IsBoundary b n := by
  constructor
  · rintro ⟨a', b', heq, hlength⟩
    rcases List.append_eq_append_iff.mp heq with ⟨more, rfl, rfl⟩ | ⟨more, rfl, rfl⟩
    · refine ⟨more, b', rfl, ?_⟩
      rw [byteLength_append] at hlength
      omega
    · -- the part of these bytes is no longer than `a`, so it is `a`
      rw [byteLength_append] at hlength
      obtain rfl : more = [] := eq_nil_of_byteLength (by omega)
      rw [byteLength_nil] at hlength
      exact ⟨[], b, rfl, by rw [byteLength_nil]; omega⟩
  · rintro ⟨more, behind, rfl, rfl⟩
    exact ⟨a ++ more, behind, by rw [List.append_assoc], byteLength_append a more⟩

theorem of_cutFrom {cut text a b : List Char} {n : Nat} (h : cutFrom cut n text = some (a, b)) :
    ∃ part, a = cut.reverse ++ part ∧ text = part ++ b ∧ byteLength part = n := by
  induction text generalizing cut n with
  | nil =>
    cases n with
    | zero =>
      cases h
      exact ⟨[], by simp, rfl, rfl⟩
    | succ n => cases h
  | cons c cs ih =>
    cases n with
    | zero =>
      cases h
      exact ⟨[], by simp, rfl, rfl⟩
    | succ n =>
      rw [cutFrom] at h
      split at h
      · next hfits =>
        obtain ⟨part, rfl, rfl, hlength⟩ := ih h
        refine ⟨c :: part, by simp, rfl, ?_⟩
        rw [byteLength_cons]
        omega
      · cases h

/-- A cut divides a text behind a first part of so many bytes. -/
theorem cut?_eq_some_iff {n : Nat} {text a b : List Char} :
    cut? n text = some (a, b) ↔ text = a ++ b ∧ byteLength a = n := by
  constructor
  · intro h
    obtain ⟨part, rfl, htext, hlength⟩ := of_cutFrom h
    exact ⟨htext, hlength⟩
  · rintro ⟨rfl, rfl⟩
    exact cut?_append a b

/-- There is no cut where no first part ends. -/
theorem cut?_eq_none_iff {n : Nat} {text : List Char} : cut? n text = none ↔ ¬ IsBoundary text n := by
  constructor
  · rintro h ⟨a, b, htext, hlength⟩
    rw [cut?_eq_some_iff.mpr ⟨htext, hlength⟩] at h
    cases h
  · intro h
    cases hcut : cut? n text with
    | none => rfl
    | some parts => exact absurd ⟨parts.1, parts.2, cut?_eq_some_iff.mp hcut⟩ h

end Text

namespace Cursor

open Text

/-! ## Requests in front of the rest -/

/-- The cursor that has passed the first of two parts of its input. -/
abbrev between (passed rest : List Char) : Cursor := ⟨passed ++ rest, .after passed⟩

/-- A cursor that has passed a text stands before what comes after it. -/
theorem rest_after (passed rest : List Char) :
    (⟨passed ++ rest, .after passed⟩ : Cursor).rest = .ok rest := by
  unfold Cursor.rest
  simp only [Position.after]
  rw [cut?_append]

/-- A cursor has passed the first of two parts of its input: it stands at the position
after that part, in front of the other. -/
structure HasPassed (c : Cursor) (passed left : List Char) : Prop where
  input : c.input = passed ++ left
  offset : c.position.offset = byteLength passed
  position : Position.start.advanceText passed = .ok c.position
  rest : c.rest = .ok left

theorem hasPassed_between {passed rest : List Char}
    (hsize : (passed ++ rest).length ≤ sourceBound) :
    (between passed rest).HasPassed passed rest where
  input := rfl
  offset := rfl
  position := by
    rw [List.length_append] at hsize
    exact Position.advanceText_start (by omega)
  rest := rest_after passed rest

theorem HasPassed.isBoundary {c : Cursor} {passed left : List Char} (h : c.HasPassed passed left) :
    IsBoundary c.input c.position.offset :=
  ⟨passed, left, h.input, h.offset.symm⟩

/-- A cursor can be moved over a text that comes next. -/
theorem take_after (passed taken rest : List Char)
    (hsize : (passed ++ taken ++ rest).length ≤ sourceBound) :
    (⟨passed ++ taken ++ rest, .after passed⟩ : Cursor).take (byteLength taken) =
      .ok (taken, ⟨passed ++ taken ++ rest, .after (passed ++ taken)⟩) := by
  have hlen : (passed ++ taken).length ≤ sourceBound := by
    rw [List.length_append] at hsize; omega
  have hrest := rest_after passed (taken ++ rest)
  rw [← List.append_assoc] at hrest
  unfold Cursor.take
  rw [hrest]
  simp only [bind, Except.bind, cut?_append, Position.advanceText_after passed taken hlen]
  rfl

namespace Condition

/-- A condition holds for one character of a text after the other. -/
def Accepts (p : Condition) (before : List Char) : List Char → Prop
  | [] => True
  | c :: cs => p.holds before c = .ok true ∧ p.Accepts (c :: before) cs

/-- What a condition lets pass of a text, behind the characters `before`. -/
def accepted (p : Condition) (before : List Char) : List Char → List Char
  | [] => []
  | c :: cs =>
    match p.holds before c with
    | .ok true => c :: p.accepted (c :: before) cs
    | .ok false | .error _ => []

/-- How reading under a condition comes to its end. -/
def outcome (p : Condition) (before : List Char) : List Char → Except Fault Unit
  | [] => .ok ()
  | c :: cs =>
    match p.holds before c with
    | .ok true => p.outcome (c :: before) cs
    | .ok false => .ok ()
    | .error fault => .error fault

theorem accepted_isPrefix (p : Condition) (before text : List Char) :
    p.accepted before text <+: text := by
  induction text generalizing before with
  | nil => exact List.nil_prefix
  | cons c cs ih =>
    unfold accepted
    split
    · exact List.cons_prefix_cons.mpr ⟨rfl, ih (c :: before)⟩
    · exact List.nil_prefix
    · exact List.nil_prefix

theorem accepts_accepted (p : Condition) (before text : List Char) :
    p.Accepts before (p.accepted before text) := by
  induction text generalizing before with
  | nil => trivial
  | cons c cs ih =>
    unfold accepted
    split
    · next hholds => exact ⟨hholds, ih (c :: before)⟩
    · trivial
    · trivial

/-- Reading fails at the character behind those that pass, if the condition has no
answer about it. -/
theorem of_outcome {p : Condition} {before text : List Char} {fault : Fault}
    (h : p.outcome before text = .error fault) :
    ∃ next left, text = p.accepted before text ++ next :: left ∧
      p.holds ((p.accepted before text).reverse ++ before) next = .error fault := by
  induction text generalizing before with
  | nil => cases h
  | cons c cs ih =>
    unfold outcome at h
    unfold accepted
    cases hholds : p.holds before c with
    | error fault' =>
      rw [hholds] at h
      obtain rfl : fault' = fault := Except.error.inj h
      exact ⟨c, cs, rfl, hholds⟩
    | ok answer =>
      rw [hholds] at h
      cases answer with
      | false => cases h
      | true =>
        obtain ⟨next, left, hsplit, hfault⟩ := ih h
        refine ⟨next, left, congrArg (c :: ·) hsplit, ?_⟩
        rw [← hfault]
        simp

/-- A condition on each character alone lets a run of its characters pass. -/
theorem accepted_coe (p : Char → Bool) (before text : List Char) :
    (p : Condition).accepted before text = text.takeWhile p := by
  induction text generalizing before with
  | nil => rfl
  | cons c cs ih =>
    have hanswer : (p : Condition).holds before c = .ok (p c) := rfl
    rw [accepted, hanswer, List.takeWhile_cons, ih]
    cases p c <;> rfl

/-- It has an answer about every character. -/
theorem outcome_coe (p : Char → Bool) (before text : List Char) :
    (p : Condition).outcome before text = .ok () := by
  induction text generalizing before with
  | nil => rfl
  | cons c cs ih =>
    have hanswer : (p : Condition).holds before c = .ok (p c) := rfl
    rw [outcome, hanswer, ih]
    cases p c <;> rfl

end Condition

/-- What a request reads of what is left. -/
def Request.reads (request : Request) (rest : List Char) : List Char :=
  match request with
  | .bump => rest.take 1
  | .take n => ((cut? n rest).map (·.1)).getD []
  | .takeWhile p => p.accepted [] rest
  | .takeLine => restOfLine rest
  | .ahead _ | .startsWith _ | .rest | .input | .atEnd | .sliceFrom _ | .spanFrom _ => []

theorem Request.reads_isPrefix (request : Request) (rest : List Char) :
    request.reads rest <+: rest := by
  cases request with
  | bump => exact List.take_prefix 1 rest
  | take n =>
    show ((cut? n rest).map (·.1)).getD [] <+: rest
    cases hcut : cut? n rest with
    | none => exact List.nil_prefix
    | some parts => exact ⟨parts.2, (cut?_eq_some_iff.mp hcut).1.symm⟩
  | takeWhile p => exact p.accepted_isPrefix [] rest
  | takeLine => exact List.takeWhile_prefix _
  | _ => exact List.nil_prefix

section

variable {passed rest : List Char}

theorem bump_between (hsize : (passed ++ rest).length ≤ sourceBound) :
    (between passed rest).bump =
      .ok (rest.head?, ⟨passed ++ rest, .after (passed ++ rest.take 1)⟩) := by
  unfold bump
  rw [rest_after]
  cases rest with
  | nil =>
    show Except.ok _ = _
    simp
  | cons c cs =>
    have hlen : passed.length < sourceBound := by
      rw [List.length_append, List.length_cons] at hsize
      omega
    simp only [bind, Except.bind, Position.advance_after hlen]
    rfl

theorem take_between {n : Nat} {read left : List Char} (hcut : cut? n rest = some (read, left))
    (hsize : (passed ++ rest).length ≤ sourceBound) :
    (between passed rest).take n = .ok (read, ⟨passed ++ rest, .after (passed ++ read)⟩) := by
  obtain ⟨rfl, rfl⟩ := cut?_eq_some_iff.mp hcut
  have htake := take_after passed read left (by rw [List.append_assoc]; exact hsize)
  rwa [List.append_assoc] at htake

theorem take_between_of_none {n : Nat} (hcut : cut? n rest = none) :
    (between passed rest).take n = .error .badCut := by
  unfold take
  rw [rest_after]
  simp only [bind, Except.bind, hcut]
  rfl

/-- Taking bytes fails if they lead past the end or not to a boundary, and only
then. -/
theorem take_fails_iff (hsize : (passed ++ rest).length ≤ sourceBound) (n : Nat) :
    (∃ fault, ((between passed rest).run (.take n)).1 = .error fault) ↔
      byteLength (passed ++ rest) < byteLength passed + n ∨
        ¬ IsBoundary (passed ++ rest) (byteLength passed + n) := by
  rw [isBoundary_append]
  cases hcut : cut? n rest with
  | none =>
    have hanswer : ((between passed rest).run (.take n)).1 = .error .badCut := by
      simp only [run, take_between_of_none hcut, settle]
      rfl
    exact iff_of_true ⟨.badCut, hanswer⟩ (.inr (cut?_eq_none_iff.mp hcut))
  | some parts =>
    have hmeets : IsBoundary rest n := ⟨parts.1, parts.2, cut?_eq_some_iff.mp hcut⟩
    have hanswer : ((between passed rest).run (.take n)).1 = .ok (.text parts.1) := by
      simp only [run, take_between hcut hsize, settle]
      rfl
    rw [hanswer]
    refine iff_of_false (fun ⟨fault, h⟩ => by cases h) ?_
    rintro (hpast | hnone)
    · have hwithin := hmeets.le
      rw [byteLength_append] at hpast
      omega
    · exact hnone hmeets

theorem takeWhileFrom_after (input : List Char) (hsize : (passed ++ rest).length ≤ sourceBound)
    (p : Condition) (before : List Char) :
    takeWhileFrom ⟨input, .after passed⟩ p before rest =
      (p.outcome before rest, ⟨input, .after (passed ++ p.accepted before rest)⟩) := by
  induction rest generalizing passed before with
  | nil => simp [takeWhileFrom, Condition.outcome, Condition.accepted]
  | cons c cs ih =>
    have hlen : passed.length < sourceBound := by
      rw [List.length_append, List.length_cons] at hsize
      omega
    have hsize' : (passed ++ [c] ++ cs).length ≤ sourceBound := by simpa using hsize
    rw [takeWhileFrom, Condition.outcome, Condition.accepted]
    cases p.holds before c with
    | error fault => simp only [List.append_nil]
    | ok answer =>
      cases answer with
      | false => simp only [List.append_nil]
      | true =>
        simp only [Position.advance_after hlen, ih hsize', List.append_assoc,
          List.singleton_append]

/-- What a condition lets pass of the rest is read, whether or not the condition has
an answer about what comes then. -/
theorem takeWhile_between (hsize : (passed ++ rest).length ≤ sourceBound) (p : Condition) :
    (between passed rest).takeWhile p =
      ((p.outcome [] rest).map fun _ => byteLength (p.accepted [] rest),
        ⟨passed ++ rest, .after (passed ++ p.accepted [] rest)⟩) := by
  have hcount : (Position.after (passed ++ p.accepted [] rest)).offset -
      (Position.after passed).offset = byteLength (p.accepted [] rest) := by
    show byteLength (passed ++ p.accepted [] rest) - byteLength passed = _
    rw [byteLength_append]
    omega
  unfold takeWhile
  rw [rest_after]
  simp only [takeWhileFrom_after (passed ++ rest) hsize, hcount]

/-- The rest of the line is read without fail. -/
theorem takeLine_between (hsize : (passed ++ rest).length ≤ sourceBound) :
    (between passed rest).takeLine =
      (.ok (restOfLine rest), ⟨passed ++ rest, .after (passed ++ restOfLine rest)⟩) := by
  have hline : Condition.accepted (fun c => c != '\n' : Char → Bool) [] rest = restOfLine rest :=
    Condition.accepted_coe _ [] rest
  obtain ⟨left, hleft⟩ : restOfLine rest <+: rest := List.takeWhile_prefix _
  have hslice := slice?_append passed (restOfLine rest) left
  rw [hleft] at hslice
  unfold takeLine
  simp only [takeWhile_between hsize, Condition.outcome_coe, hline]
  simp only [sliceFrom, Position.after, hslice]
  rfl

/-- A request leaves the cursor behind what it reads. -/
theorem run_between (hsize : (passed ++ rest).length ≤ sourceBound) (request : Request) :
    ((between passed rest).run request).2 =
      ⟨passed ++ rest, .after (passed ++ request.reads rest)⟩ := by
  have still : between passed rest = ⟨passed ++ rest, .after (passed ++ [])⟩ := by
    rw [List.append_nil]
  cases request with
  | bump => simp only [run, bump_between hsize, settle, Request.reads]
  | take n =>
    cases hcut : cut? n rest with
    | none =>
      simp only [run, take_between_of_none hcut, settle, Request.reads, hcut]
      exact still
    | some parts =>
      simp only [run, take_between hcut hsize, settle, Request.reads, hcut]
      rfl
  | takeWhile p => simp only [run, takeWhile_between hsize, Request.reads]
  | takeLine => simp only [run, takeLine_between hsize, Request.reads]
  | _ => exact still

/-- A request that fails reads nothing, unless it reads under a condition, and only if
the condition has no answer about the character behind those that it reads. -/
theorem fault_cases (hsize : (passed ++ rest).length ≤ sourceBound) {request : Request}
    {fault : Fault} (h : ((between passed rest).run request).1 = .error fault) :
    request.reads rest = [] ∧
        ((∃ n, request = .take n) ∨ (∃ start, request = .sliceFrom start) ∨
          ∃ start, request = .spanFrom start) ∨
      ∃ p next left, request = .takeWhile p ∧ rest = request.reads rest ++ next :: left ∧
        p.holds (request.reads rest).reverse next = .error fault := by
  have hrest := rest_after passed rest
  cases request with
  | ahead n =>
    simp only [run, Cursor.ahead, hrest] at h
    cases h
  | bump =>
    simp only [run, bump_between hsize, settle] at h
    cases h
  | take n =>
    cases hcut : cut? n rest with
    | none => exact .inl ⟨by simp [Request.reads, hcut], .inl ⟨n, rfl⟩⟩
    | some parts =>
      simp only [run, take_between hcut hsize, settle] at h
      cases h
  | takeWhile p =>
    simp only [run, takeWhile_between hsize] at h
    cases houtcome : p.outcome [] rest with
    | ok _ =>
      rw [houtcome] at h
      cases h
    | error fault' =>
      rw [houtcome] at h
      obtain rfl : fault' = fault := Except.error.inj h
      obtain ⟨next, left, hsplit, hfault⟩ := Condition.of_outcome houtcome
      rw [List.append_nil] at hfault
      exact .inr ⟨p, next, left, rfl, hsplit, hfault⟩
  | takeLine =>
    simp only [run, takeLine_between hsize] at h
    cases h
  | startsWith text =>
    simp only [run, Cursor.startsWith, hrest] at h
    cases h
  | rest =>
    simp only [run, hrest] at h
    cases h
  | input | atEnd => cases h
  | sliceFrom start => exact .inl ⟨rfl, .inr (.inl ⟨start, rfl⟩)⟩
  | spanFrom start => exact .inl ⟨rfl, .inr (.inr ⟨start, rfl⟩)⟩

end

/-! ## Sequences of requests -/

/-- The cursor after a sequence of requests, of which some may have failed. -/
def runAll (c : Cursor) (requests : List Request) : Cursor :=
  requests.foldl (fun c request => (c.run request).2) c

/-- Requests move a cursor over parts of its input. -/
theorem exists_runAll {passed rest : List Char} (hsize : (passed ++ rest).length ≤ sourceBound)
    (requests : List Request) :
    ∃ read left, rest = read ++ left ∧
      (between passed rest).runAll requests = between (passed ++ read) left := by
  induction requests generalizing passed rest with
  | nil => exact ⟨[], rest, rfl, by simp [runAll]⟩
  | cons request requests ih =>
    have hfirst := run_between hsize request
    obtain ⟨behind, hsplit⟩ := request.reads_isPrefix rest
    generalize request.reads rest = first at hfirst hsplit
    subst hsplit
    rw [← List.append_assoc] at hsize
    obtain ⟨more, left, rfl, hmore⟩ := ih hsize
    refine ⟨first ++ more, left, by rw [List.append_assoc], ?_⟩
    rw [runAll, List.foldl_cons, hfirst, ← runAll, ← List.append_assoc, hmore, List.append_assoc]

/-- In an input of at most 2³² − 2 characters, after any sequence of requests,
failed ones among them, the cursor stands between two parts of the input, of
which it has passed the first. Any further request reads the beginning of the
second part, and leaves the cursor behind it: its offset is the length in bytes of
what it has passed by then, so a boundary between characters that is no further
than the end; its position is the one after that; what is still to be read is the
rest of the input; and it has not moved back. If the request fails, the cursor
stands where it stood, with one exception. A condition that has no answer about a
character leaves the cursor in front of that character, behind those that it has
let pass. As for taking, exactly those numbers of bytes fail that lead past the end
or not to a boundary. -/
theorem run_keeps (input : List Char) (hsize : input.length ≤ sourceBound)
    (requests : List Request) (request : Request) :
    let before := (Cursor.mk input .start).runAll requests
    let after := (before.run request).2
    (∃ passed read left, input = passed ++ read ++ left ∧
      before.HasPassed passed (read ++ left) ∧ after.HasPassed (passed ++ read) left ∧
      request.reads (read ++ left) = read ∧
      ∀ fault, (before.run request).1 = .error fault →
        after = before ∧ ((∃ n, request = .take n) ∨ (∃ start, request = .sliceFrom start) ∨
          ∃ start, request = .spanFrom start) ∨
        ∃ p next more, request = .takeWhile p ∧ p.Accepts [] read ∧ left = next :: more ∧
          p.holds read.reverse next = .error fault) ∧
    after.position.offset ≤ byteLength input ∧ IsBoundary input after.position.offset ∧
    before.position.offset ≤ after.position.offset ∧
    ∀ n, (∃ fault, (before.run (.take n)).1 = .error fault) ↔
      byteLength input < before.position.offset + n ∨
        ¬ IsBoundary input (before.position.offset + n) := by
  intro before after
  obtain ⟨passed, rest, rfl, hbefore⟩ :
      ∃ passed rest, input = passed ++ rest ∧ before = between passed rest :=
    @exists_runAll [] input hsize requests
  obtain ⟨left, hleft⟩ := request.reads_isPrefix rest
  have hsplit : passed ++ rest = passed ++ request.reads rest ++ left := by
    rw [List.append_assoc, hleft]
  have hafter : after = between (passed ++ request.reads rest) left := by
    show (before.run request).2 = _
    rw [hbefore, run_between hsize, hsplit]
  have hstood : before.HasPassed passed rest := hbefore ▸ hasPassed_between hsize
  have hstands : after.HasPassed (passed ++ request.reads rest) left :=
    hafter ▸ hasPassed_between (hsplit ▸ hsize)
  have hboundary : IsBoundary (passed ++ rest) after.position.offset := by
    rw [hsplit, ← hstands.input]
    exact hstands.isBoundary
  refine ⟨⟨passed, request.reads rest, left, hsplit, by rwa [hleft], hstands, by rw [hleft],
    fun fault h => ?_⟩, hboundary.le, hboundary, ?_, fun n => ?_⟩
  · rw [hbefore] at h
    rcases fault_cases hsize h with ⟨hnothing, hwhich⟩ | ⟨p, next, more, rfl, hmore, hfault⟩
    · rw [hnothing, List.nil_append] at hleft
      rw [hnothing, List.append_nil, hleft] at hafter
      exact .inl ⟨hafter.trans hbefore.symm, hwhich⟩
    · refine .inr ⟨p, next, more, rfl, p.accepts_accepted [] rest, ?_, hfault⟩
      exact List.append_cancel_left (hleft.trans hmore)
  · rw [hstands.offset, hstood.offset, byteLength_append]
    omega
  · rw [hstood.offset, hbefore]
    exact take_fails_iff hsize n

/-- A condition that lets the letter `Ё` pass, and has no answer about any other. -/
def Condition.knowsOneLetter : Condition :=
  ⟨fun _ c => if c = 'Ё' then .ok true else .error .noAnswer⟩

/-- Behind a letter of two bytes, in front of another, one byte cannot be taken, and a
condition without an answer about the next letter reads the first of the two. -/
theorem run_keeps_within_letter :
    ['Ё', 'ж'].length ≤ sourceBound ∧
    ((Cursor.mk ['Ё', 'ж'] .start).runAll [.bump]).run (.take 1) =
      (.error .badCut, ⟨['Ё', 'ж'], ⟨2, 1, 2⟩⟩) ∧
    ¬ IsBoundary ['Ё', 'ж'] 3 ∧
    ((Cursor.mk ['Ё', 'ж'] .start).runAll [.take 1]).run (.takeWhile .knowsOneLetter) =
      (.error .noAnswer, ⟨['Ё', 'ж'], ⟨2, 1, 2⟩⟩) ∧
    ∃ read next more, ['Ё', 'ж'] = read ++ next :: more ∧ byteLength read = 2 ∧
      Condition.knowsOneLetter.Accepts [] read ∧
      Condition.knowsOneLetter.holds read.reverse next = .error .noAnswer := by
  have hsize : ['Ё', 'ж'].length ≤ sourceBound := by decide
  have hcut : ((Cursor.mk ['Ё', 'ж'] .start).runAll [.bump]).run (.take 1) =
      (.error .badCut, ⟨['Ё', 'ж'], ⟨2, 1, 2⟩⟩) := rfl
  have hasked : ((Cursor.mk ['Ё', 'ж'] .start).runAll [.take 1]).run (.takeWhile .knowsOneLetter) =
      (.error .noAnswer, ⟨['Ё', 'ж'], ⟨2, 1, 2⟩⟩) := rfl
  obtain ⟨-, -, -, -, htake⟩ := run_keeps ['Ё', 'ж'] hsize [.bump] (.take 1)
  obtain ⟨⟨passed, read, left, hsplit, hstood, hstands, -, hfailed⟩, -⟩ :=
    run_keeps ['Ё', 'ж'] hsize [.take 1] (.takeWhile .knowsOneLetter)
  obtain rfl : passed = [] := eq_nil_of_byteLength hstood.offset.symm
  refine ⟨hsize, hcut, ?_, hasked, ?_⟩
  · rcases (htake 1).mp ⟨.badCut, congrArg Prod.fst hcut⟩ with hpast | hwithin
    · exact absurd hpast (by decide)
    · exact hwithin
  · rcases hfailed .noAnswer (congrArg Prod.fst hasked) with
      ⟨hstill, -⟩ | ⟨p, next, more, hp, haccepts, rfl, hfault⟩
    · exact absurd hstill (by decide)
    · obtain rfl := Request.takeWhile.inj hp
      exact ⟨read, next, more, hsplit, hstands.offset.symm, haccepts, hfault⟩

/-- A request that fails may have moved the cursor: here the condition lets `Ё` pass,
and has no answer about `ж`. -/
theorem moved_by_failure :
    ((Cursor.mk ['Ё', 'ж'] .start).run (.takeWhile .knowsOneLetter)) =
      (.error .noAnswer, ⟨['Ё', 'ж'], ⟨2, 1, 2⟩⟩) ∧
    ¬ ∀ (input : List Char) (requests : List Request) (request : Request) (fault : Fault),
      input.length ≤ sourceBound →
      let before := (Cursor.mk input .start).runAll requests
      (before.run request).1 = .error fault →
        (before.run request).2.position = before.position := by
  have hrun : ((Cursor.mk ['Ё', 'ж'] .start).run (.takeWhile .knowsOneLetter)) =
      (.error .noAnswer, ⟨['Ё', 'ж'], ⟨2, 1, 2⟩⟩) := rfl
  refine ⟨hrun, fun hstays => ?_⟩
  have hstart := hstays ['Ё', 'ж'] [] (.takeWhile .knowsOneLetter) .noAnswer (by decide)
    (congrArg Prod.fst hrun)
  exact absurd hstart (by decide)

end Cursor

end Highlight1C
