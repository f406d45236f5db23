import Highlight1C.Highlight
import Highlight1C.Proofs.Scan

/-!
# What is logged on the way

All logging goes through `Logging.post`, debugging notes included, which are not
even made when they would not be passed on (`Logging.debug_eq_post`).
`Logging.Posts Q l l'` says that from `l` to `l'` events were posted one after
the other, each posting with the property `Q`, and that nothing else of the
logging has changed; `Logging.Logs P l l'` says so of a property of the events
themselves. So what a sink or the collector gets in between are such events only.

A scan posts asides: notes and news, which are not collected (`posts_final`). So
it never logs an error (`logs_final`).
-/

namespace Highlight1C

open Log (Event)

/-- An event as it is posted. -/
structure Posting where
  /-- Whether it is collected for the file that is being worked on. -/
  collect : Bool
  event : Event
  /-- The values that are set in its context. -/
  values : List (String × String)

namespace Logging

theorem withValues_context (e : Event) (values : List (String × String)) :
    e.withValues values = { e with context := (e.withValues values).context } := by
  unfold Event.withValues
  induction values generalizing e with
  | nil => rfl
  | cons value values ih => exact ih _

/-- Nothing but the context of an event is set when it is dressed. -/
theorem dress_context (l : Logging) (e : Event) (values : List (String × String)) :
    l.dress e values = { e with context := (l.dress e values).context } := by
  have hvalues := withValues_context e values
  simp only [dress]
  split
  · split
    · rw [hvalues]
      rfl
    · exact hvalues
  · exact hvalues

theorem level_dress (l : Logging) (e : Event) (values : List (String × String)) :
    (l.dress e values).level = e.level := by
  rw [dress_context]

theorem code_dress (l : Logging) (e : Event) (values : List (String × String)) :
    (l.dress e values).code = e.code := by
  rw [dress_context]

/-- A note that is not made would not have been passed on. -/
theorem debug_eq_post (l : Logging) (message : String) (span : Option Span)
    (values : List (String × String)) :
    l.debug message span values = l.post false { Event.debug message with span } values := by
  unfold debug
  split
  · rfl
  next hnotes =>
  unfold post
  cases hactive : l.active with
  | none => rfl
  | some a =>
    have hlevel : (l.dress { Event.debug message with span } values).level = .debug :=
      level_dress l _ values
    have hheld : a.service.admits .debug = false := by
      rw [debugEnabled, hactive, Option.any_some] at hnotes
      exact (Bool.not_eq_true _).mp hnotes
    simp only [Log.Service.log, hlevel, hheld, Bool.false_eq_true, if_false, ← hactive]

/-- Posts events one after the other. -/
def postAll (l : Logging) (postings : List Posting) : Logging :=
  postings.foldl (fun l p => l.post p.collect p.event p.values) l

theorem postAll_append (l : Logging) (ps qs : List Posting) :
    l.postAll (ps ++ qs) = (l.postAll ps).postAll qs :=
  List.foldl_append

/-- Between the two, only postings with the property `Q` have been made. -/
def Posts (Q : Posting → Prop) (l l' : Logging) : Prop :=
  ∃ postings, l' = l.postAll postings ∧ ∀ p ∈ postings, Q p

/-- Between the two, only events with the property `P` have been logged. -/
def Logs (P : Event → Prop) (l l' : Logging) : Prop :=
  ∃ postings, l' = l.postAll postings ∧ ∀ p ∈ postings, P p.event

variable {P : Event → Prop} {Q : Posting → Prop} {l l₁ l₂ : Logging}

theorem Posts.refl (Q : Posting → Prop) (l : Logging) : Posts Q l l :=
  ⟨[], rfl, fun _ h => absurd h List.not_mem_nil⟩

theorem Posts.trans (h₁ : Posts Q l l₁) (h₂ : Posts Q l₁ l₂) : Posts Q l l₂ := by
  obtain ⟨ps, rfl, hp⟩ := h₁
  obtain ⟨qs, rfl, hq⟩ := h₂
  refine ⟨ps ++ qs, (l.postAll_append ps qs).symm, fun p h => ?_⟩
  rcases List.mem_append.mp h with h | h
  · exact hp p h
  · exact hq p h

theorem posts_post {p : Posting} (hp : Q p) (l : Logging) :
    Posts Q l (l.post p.collect p.event p.values) :=
  ⟨[p], rfl, fun _ h => List.mem_singleton.mp h ▸ hp⟩

theorem Posts.logs (h : Posts Q l l₁) (hQ : ∀ p, Q p → P p.event) : Logs P l l₁ := by
  obtain ⟨ps, heq, hp⟩ := h
  exact ⟨ps, heq, fun p hmem => hQ p (hp p hmem)⟩

theorem Logs.refl (P : Event → Prop) (l : Logging) : Logs P l l :=
  (Posts.refl (fun p => P p.event) l).logs fun _ h => h

theorem Logs.trans (h₁ : Logs P l l₁) (h₂ : Logs P l₁ l₂) : Logs P l l₂ :=
  Posts.trans (Q := fun p => P p.event) h₁ h₂

theorem logs_post {e : Event} (he : P e) (l : Logging) (collect : Bool)
    (values : List (String × String)) : Logs P l (l.post collect e values) :=
  posts_post (Q := fun p => P p.event) (p := ⟨collect, e, values⟩) he l

end Logging

/-- An event that reports no failure. -/
def Log.Event.NoError (e : Event) : Prop :=
  e.level ≠ .error ∧ e.code ≠ .internalError

/-- A posting that is not collected and reports no failure. -/
structure Posting.Aside (p : Posting) : Prop where
  uncollected : p.collect = false
  noError : p.event.NoError

namespace Logging

open Log (Code)

theorem posts_debug (l : Logging) (message : String) (span : Option Span)
    (values : List (String × String)) : Posts Posting.Aside l (l.debug message span values) := by
  have haside : Posting.Aside ⟨false, { Event.debug message with span }, values⟩ := by
    refine ⟨rfl, ?_⟩
    show Log.Level.debug ≠ .error ∧ Code.plainDebug ≠ .internalError
    decide
  rw [debug_eq_post]
  exact posts_post haside l

theorem posts_success {code : Code} (hcode : code ≠ .internalError) (l : Logging)
    (message : String) (values : List (String × String)) :
    Posts Posting.Aside l (l.success code message values) := by
  have haside : Posting.Aside ⟨false, Event.success code message, values⟩ := by
    refine ⟨rfl, ?_, hcode⟩
    show Log.Level.info ≠ .error
    decide
  exact posts_post haside l

end Logging

namespace Session

open Logging

variable (language : Language) (preferences : ScannerPreferences)

theorem posts_noteError (s : Session) (t : Token) :
    Posts Posting.Aside s.logging (s.noteError language preferences t).logging := by
  simp only [noteError]
  split
  · exact .refl _ _
  split
  · exact posts_debug ..
  split
  · exact posts_debug ..
  · exact .refl _ _

theorem posts_receive (s : Session) (p : Piece Token) :
    Posts Posting.Aside s.logging (s.receive language preferences p).logging := by
  cases p with
  | token t =>
    simp only [receive]
    split
    · exact posts_noteError language preferences
        { s.put (.token t) with position := t.span.stop, tokens := s.tokens + 1 } t
    · exact .refl _ _
  | beginGroup => exact .refl _ _
  | endGroup => exact .refl _ _

theorem posts_foldl_receive (ps : List (Piece Token)) (s : Session) :
    Posts Posting.Aside s.logging (ps.foldl (receive language preferences) s).logging := by
  induction ps generalizing s with
  | nil => exact .refl _ _
  | cons p ps ih => exact (posts_receive language preferences s p).trans (ih _)

theorem posts_closeOpen (s : Session) (mode : Mode) :
    Posts Posting.Aside s.logging (s.closeOpen language preferences mode).logging := by
  cases mode with
  | initial => exact .refl _ _
  | inString =>
    simp only [closeOpen, put]
    split
    · exact posts_debug ..
    · exact .refl _ _

/-- A scan posts asides. -/
theorem posts_final (keepMetrics : Bool) (source : List Char) (logging : Logging) :
    Posts Posting.Aside logging
      (final language preferences keepMetrics source logging).logging := by
  refine Posts.trans ?_ (posts_closeOpen language preferences _ _)
  refine Posts.trans ?_ (posts_foldl_receive language preferences _ _)
  exact posts_debug logging _ _ _

/-- A scan logs no error. -/
theorem logs_final (keepMetrics : Bool) (source : List Char) (logging : Logging) :
    Logs Event.NoError logging (final language preferences keepMetrics source logging).logging :=
  (posts_final language preferences keepMetrics source logging).logs fun _ h => h.noError

end Session

end Highlight1C
