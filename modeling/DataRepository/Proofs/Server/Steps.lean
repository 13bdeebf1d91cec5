import Mathlib.Data.List.Induction
import DataRepository.Server.Lifecycle

/-!
# What a server can do

`Server.step?` says it as a function of events.  Here it is said case by case (`Step`), each case with
the condition under which it arises and all that it changes; whatever holds of every step is proved
from the cases.  A run is taken apart at its last step (`run?_induction`), as what has happened so far
is what later events are judged by.
-/
namespace DataRepository.Server

/-- The steps of a server: what an event makes of it, and what is reported. -/
inductive Step (s : Server) : Event → Server → List Report → Prop where
  | started (hs : s.state = .unstarted) :
      Step s .start { s with state := .serving, accepting := true, signal := .pending }
        [.start (.ok ())]
  | startRefused (hs : s.state ≠ .unstarted) :
      Step s .start s [.start (.error (.invalidState s.state))]
  | closedUnused (call : Nat) (hs : s.state = .unstarted) :
      Step s (.shutdown call) { s with state := .closed, listening := false }
        [.shutdown call .notStarted]
  | shutdownBegun (call : Nat) (hs : s.state = .serving) :
      Step s (.shutdown call)
        { s with state := .shuttingDown, drain := some .called, caller := some call } []
  | shutdownRefused (call : Nat) (hs : s.state = .shuttingDown ∨ s.state = .closed) :
      Step s (.shutdown call) s [.shutdown call .alreadyClosed]
  | abandoned (call : Nat) (hc : s.caller = some call) :
      Step s (.abandon call) { s with caller := none } []
  | accepted (ha : s.accepting) :
      Step s .accept
        { s with
          connections := s.connections ++
            [{ id := s.accepted, session := if s.secured then none else some {} }]
          accepted := s.accepted + 1 } []
  | connectionFault (cause : String) (ha : s.accepting) : Step s (.acceptFault true cause) s []
  | listenerFault (cause : String) (ha : s.accepting) :
      Step s (.acceptFault false cause)
        { s with
          listening := false, accepting := false
          signal := .resolved (some (.acceptLoop cause)) } []
  | loopStopped (ha : s.accepting) (hstop : s.stopSignal) :
      Step s .loopStop
        { s with listening := false, accepting := false, signal := .resolved none } []
  | turned {c : Connection} {e : Connection.Event} {t : Turn} (hc : c ∈ s.connections)
      (ht : c.turn? s.stopSignal s.forceSignal s.entered e = some t) :
      Step s (.on c.id e) (s.turn c t) []
  | drainStarted (hd : s.drain = some .called) :
      Step s .drainStart { s with stopSignal := true, drain := some .stopping } []
  | joined (hd : s.drain = some .stopping) (ha : s.accepting = false) :
      Step s .joined { s with drain := some .waiting } []
  | overdue (hd : s.drain = some .waiting) (hc : s.connections ≠ []) :
      Step s .deadline { s with forceSignal := true, drain := some .forcing } []
  | drained {e : Event} (he : e = .deadline ∨ e = .drainEnd) (hd : s.drain = some .waiting)
      (hc : s.connections = []) : Step s e (s.close .drained).1 (s.close .drained).2
  | cleared (hd : s.drain = some .forcing) (hc : s.connections = []) :
      Step s .drainEnd (s.close .timedOut).1 (s.close .timedOut).2

variable {s t u : Server} {e : Event} {es later : List Event} {reports told more : List Report}

/-! ## Steps -/

/-- **Every step is one of the cases.** -/
theorem step_of_step? (h : s.step? e = some (t, reports)) : Step s e t reports := by
  cases e with
  | start =>
    simp only [step?, Option.some.injEq, Prod.mk.injEq] at h
    obtain ⟨rfl, rfl⟩ := h
    by_cases hs : s.state = .unstarted
    · rw [start_of_unstarted hs]
      exact .started hs
    · rw [start_of_called hs]
      exact .startRefused hs
  | shutdown call =>
    simp only [step?, Option.some.injEq, Prod.mk.injEq] at h
    obtain ⟨rfl, rfl⟩ := h
    cases hs : s.state with
    | unstarted =>
      rw [shutdown_of_unstarted call hs]
      exact .closedUnused call hs
    | serving =>
      rw [shutdown_of_serving call hs]
      exact .shutdownBegun call hs
    | shuttingDown =>
      rw [shutdown_of_called call (.inl hs)]
      exact .shutdownRefused call (.inl hs)
    | closed =>
      rw [shutdown_of_called call (.inr hs)]
      exact .shutdownRefused call (.inr hs)
  | acceptFault ofConnection cause =>
    simp only [step?, Bool.not_eq_true', Option.ite_none_left_eq_some] at h
    obtain ⟨ha, h⟩ := h
    cases ofConnection <;>
      simp only [Bool.false_eq_true, if_true, if_false, Option.some.injEq, Prod.mk.injEq] at h <;>
      obtain ⟨rfl, rfl⟩ := h
    · exact .listenerFault cause (by simpa using ha)
    · exact .connectionFault cause (by simpa using ha)
  | on id e =>
    simp only [step?, Option.bind_eq_bind, Option.bind_eq_some_iff, Option.pure_def,
      Option.some.injEq, Prod.mk.injEq] at h
    obtain ⟨c, hc, turn, ht, rfl, rfl⟩ := h
    have hid : c.id = id := by simpa using List.find?_some hc
    rw [← hid]
    exact .turned (List.mem_of_find?_eq_some hc) ht
  | deadline =>
    simp only [step?, Option.ite_none_right_eq_some] at h
    obtain ⟨hd, h⟩ := h
    split at h
    next hc =>
      cases h
      exact .drained (.inl rfl) hd hc
    next hc =>
      cases h
      exact .overdue hd hc
  | drainEnd =>
    simp only [step?, Option.ite_none_right_eq_some] at h
    obtain ⟨hc, h⟩ := h
    split at h
    next hd =>
      cases h
      exact .drained (.inr rfl) hd hc
    next hd =>
      cases h
      exact .cleared hd hc
    next => cases h
  | _ =>
    simp only [step?, Option.ite_none_right_eq_some, Option.some.injEq, Prod.mk.injEq,
      Bool.not_eq_true'] at h
    obtain ⟨hc, rfl, rfl⟩ := h
    first
      | exact .abandoned _ hc
      | exact .accepted hc
      | exact .loopStopped hc.1 hc.2
      | exact .drainStarted hc
      | exact .joined hc.1 hc.2

/-! ## Runs -/

theorem run?_cons :
    s.run? (e :: es) = some (u, told) ↔
      ∃ t reports more, s.step? e = some (t, reports) ∧ t.run? es = some (u, more) ∧
        told = reports ++ more := by
  simp only [run?, Option.bind_eq_bind, Option.bind_eq_some_iff, Option.pure_def, Prod.exists,
    Option.some.injEq, Prod.mk.injEq]
  constructor
  · rintro ⟨t, reports, he, v, more, hes, rfl, rfl⟩
    exact ⟨t, reports, more, he, hes, rfl⟩
  · rintro ⟨t, reports, more, he, hes, rfl⟩
    exact ⟨t, reports, he, u, more, hes, rfl, rfl⟩

theorem run?_append :
    s.run? (es ++ later) = some (u, told) ↔
      ∃ t before after, s.run? es = some (t, before) ∧ t.run? later = some (u, after) ∧
        told = before ++ after := by
  induction es generalizing s told with
  | nil => simp [run?]
  | cons e es ih =>
    simp only [List.cons_append, run?_cons, ih]
    constructor
    · rintro ⟨t, reports, _, he, ⟨v, before, after, hes, hlater, rfl⟩, rfl⟩
      exact ⟨v, _, after, ⟨t, reports, before, he, hes, rfl⟩, hlater, by simp⟩
    · rintro ⟨v, _, after, ⟨t, reports, before, he, hes, rfl⟩, hlater, rfl⟩
      exact ⟨t, reports, _, he, ⟨v, before, after, hes, hlater, rfl⟩, by simp⟩

/-- What holds at the beginning of a run, and after each of its steps if it held before, holds at its
end. -/
@[elab_as_elim]
theorem run?_induction {motive : ∀ {t es told}, s.run? es = some (t, told) → Prop}
    (nil : motive (rfl : s.run? [] = some (s, [])))
    (snoc : ∀ {es t told e u reports} (before : s.run? es = some (t, told))
      (after : s.run? (es ++ [e]) = some (u, told ++ reports)),
      Step t e u reports → motive before → motive after)
    (h : s.run? es = some (t, told)) : motive h := by
  induction es using List.reverseRecOn generalizing t told with
  | nil =>
    cases h
    exact nil
  | append_singleton es e ih =>
    obtain ⟨mid, before, _, hes, he, rfl⟩ := run?_append.mp h
    obtain ⟨_, reports, _, hstep, hend, rfl⟩ := run?_cons.mp he
    cases hend
    simp only [List.append_nil] at h ⊢
    exact snoc hes h (step_of_step? hstep) (ih hes)

/-! ## The course of a life -/

theorem le_state_of_step (h : Step s e t reports) : s.state ≤ t.state := by
  cases h
  case started hs =>
    change s.state ≤ .serving
    rw [hs]
    decide
  case shutdownBegun hs =>
    change s.state ≤ .shuttingDown
    rw [hs]
    decide
  case closedUnused | drained | cleared => exact State.le_closed _
  all_goals exact State.le_refl _

/-- **The state never goes back** along a run. -/
theorem le_state_of_run? (h : s.run? es = some (t, told)) : s.state ≤ t.state := by
  induction h using run?_induction with
  | nil => exact State.le_refl _
  | snoc _ _ hstep ih => exact State.le_trans ih (le_state_of_step hstep)

end DataRepository.Server
