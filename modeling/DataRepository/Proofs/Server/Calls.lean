import DataRepository.Proofs.Server.Progress

/-!
# Calls to start and to shut down

However calls, the drain and the connections interleave, what a call comes to hangs on two things that
came before it: whether a start was granted, and whether a shutdown was called for.  The first of these
is to be seen from the signal (`granted_iff`), the second from the state (`firstShutdown?_eq_none_iff`);
who waits for the drain hangs on the calls that were given up (`caller_eq`).
-/
namespace DataRepository.Server

variable {secured : Bool} {s t : Server} {e : Event} {es later : List Event}
  {reports told more : List Report} {call : Nat}

/-- Whether a call to start has been granted. -/
def Report.isGrant : Report → Bool
  | .start (.ok ()) => true
  | _ => false

/-- Whether a call to shut down has not come too late. -/
def Report.isSettlement : Report → Bool
  | .shutdown _ o => o ≠ .alreadyClosed
  | .start _ => false

/-- The call that an event is, if it is one to shut down. -/
def Event.shutdown? : Event → Option Nat
  | .shutdown call => some call
  | _ => none

/-- The call to shut down that comes first. -/
def firstShutdown? (es : List Event) : Option Nat := es.findSome? Event.shutdown?

theorem firstShutdown?_concat (es : List Event) (e : Event) :
    firstShutdown? (es ++ [e]) = (firstShutdown? es).or e.shutdown? := by
  simp [firstShutdown?, List.findSome?_append]

/-! ## What the calls so far show in -/

theorem firstShutdown?_eq_none_iff (h : (bound secured).run? es = some (s, told)) :
    firstShutdown? es = none ↔ s.state = .unstarted ∨ s.state = .serving := by
  induction h using run?_induction with
  | nil => simp [firstShutdown?, bound]
  | snoc before _ hstep ih =>
    have hs := sound_of_run? before
    rw [firstShutdown?_concat, Option.or_eq_none_iff, ih]
    cases hstep with
    | started hstate => simp [hstate, Event.shutdown?]
    | closedUnused | shutdownBegun => simp [Event.shutdown?]
    | shutdownRefused _ hstate => rcases hstate with hstate | hstate <;> simp [hstate]
    | drained _ hd | cleared hd => simp [hs.state_of_drain hd]
    | _ => simp [Event.shutdown?]

theorem firstShutdown?_ne_none_iff (h : (bound secured).run? es = some (s, told)) :
    firstShutdown? es ≠ none ↔ s.state = .shuttingDown ∨ s.state = .closed := by
  rw [ne_eq, firstShutdown?_eq_none_iff h]
  cases s.state <;> simp

theorem exists_firstShutdown? (h : (bound secured).run? es = some (s, told))
    (hstate : s.state = .shuttingDown ∨ s.state = .closed) :
    ∃ call, firstShutdown? es = some call :=
  Option.ne_none_iff_exists'.mp ((firstShutdown?_ne_none_iff h).mpr hstate)

theorem isGrant_iff {r : Report} : r.isGrant ↔ r = .start (.ok ()) := by
  cases r with
  | start result => cases result <;> simp [Report.isGrant]
  | shutdown => simp [Report.isGrant]

/-- One call to start is granted at the most. -/
theorem countP_isGrant_le (h : (bound secured).run? es = some (s, told)) :
    told.countP Report.isGrant ≤ 1 := by
  induction h using run?_induction with
  | nil => simp
  | snoc before _ hstep ih =>
    have hs := sound_of_run? before
    rw [List.countP_append]
    cases hstep with
    | started hstate =>
      -- An unstarted server has no signal yet, so no call has been granted.
      have hnone := (granted_iff before).not.mpr (not_not_intro (hs.unstarted hstate))
      have hzero := List.countP_eq_zero.mpr fun r hr hgrant =>
        hnone (isGrant_iff.mp hgrant ▸ hr)
      simp [hzero, Report.isGrant]
    | drained | cleared =>
      simpa [close, List.countP_map, Function.comp_def, Report.isGrant] using ih
    | _ => simpa [Report.isGrant] using ih

/-- No call is given up before one waits. -/
theorem firstShutdown?_ne_none_of_abandon (h : (bound secured).run? es = some (s, told))
    (hmem : .abandon call ∈ es) : firstShutdown? es ≠ none := by
  induction h using run?_induction with
  | nil => cases hmem
  | snoc before _ hstep ih =>
    rw [List.mem_append, List.mem_singleton] at hmem
    rw [firstShutdown?_concat, ne_eq, Option.or_eq_none_iff, not_and_or]
    rcases hmem with hmem | rfl
    · exact .inl (ih hmem)
    · cases hstep with
      | abandoned _ hc =>
        have hs := sound_of_run? before
        have hstate := hs.drain.mp (hs.caller (by simp [hc]))
        simp [firstShutdown?_eq_none_iff before, hstate]
      | drained he => simp at he

/-- The call that waits for a drain is the first, unless it was given up. -/
theorem caller_eq (h : (bound secured).run? es = some (s, told)) (hdrain : s.drain ≠ none)
    (hfirst : firstShutdown? es = some call) :
    s.caller = if .abandon call ∈ es then none else some call := by
  induction h using run?_induction with
  | nil => cases hfirst
  | @snoc es _ _ _ _ _ before _ hstep ih =>
    have hs := sound_of_run? before
    rw [firstShutdown?_concat] at hfirst
    cases hstep with
    | closedUnused _ hstate =>
      rw [hs.drain.mp hdrain] at hstate
      cases hstate
    | shutdownBegun first hstate =>
      have hnone := (firstShutdown?_eq_none_iff before).mpr (.inr hstate)
      obtain rfl : first = call := by simpa [hnone, Event.shutdown?] using hfirst
      have hmem : .abandon first ∉ es := fun hmem =>
        firstShutdown?_ne_none_of_abandon before hmem hnone
      simp [hmem]
    | shutdownRefused _ hstate =>
      obtain ⟨first, hsome⟩ := exists_firstShutdown? before hstate
      simpa using ih hdrain (by simpa [hsome] using hfirst)
    | abandoned given hgiven =>
      have hcaller := ih hdrain (by simpa [Event.shutdown?] using hfirst)
      rw [hgiven] at hcaller
      split at hcaller
      · cases hcaller
      · cases hcaller
        simp
    | drained | cleared => simp at hdrain
    | drainStarted hd | joined hd | overdue hd =>
      simpa using ih (by simp [hd]) (by simpa [Event.shutdown?] using hfirst)
    | _ => simpa using ih hdrain (by simpa [Event.shutdown?] using hfirst)

/-- What the calls to shut down come to that do not come too late, as far as it is known. -/
def settlements (es : List Event) (s : Server) : List Report :=
  match firstShutdown? es with
  | none => []
  | some call =>
    if s.signal = .absent then [.shutdown call .notStarted]
    else if .abandon call ∈ es then []
    else s.outcome.toList.map (.shutdown call)

/-- Nothing is known before the server is closed. -/
theorem settlements_of_not_closed (h : (bound secured).run? es = some (s, told))
    (hstate : s.state ≠ .closed) : settlements es s = [] := by
  have hs := sound_of_run? h
  have houtcome : s.outcome = none := by
    by_contra hne
    exact hstate (hs.outcome hne)
  unfold settlements
  split
  next => rfl
  next call hfirst =>
    have hcalled := (firstShutdown?_ne_none_iff h).mp (by simp [hfirst])
    have hdraining := hcalled.resolve_right hstate
    rw [if_neg (hs.signal_ne_absent (.inr hdraining)), houtcome]
    simp

/-- The end of a drain tells the call that came first, unless it was given up. -/
theorem settlements_close {d : Drain} (h : (bound secured).run? es = some (s, told))
    (hd : s.drain = some d) (he : e = .deadline ∨ e = .drainEnd) (o : Outcome) :
    settlements (es ++ [e]) (s.close o).1 = (s.close o).2 := by
  have hs := sound_of_run? h
  have hstate := hs.state_of_drain hd
  obtain ⟨first, hfirst⟩ := exists_firstShutdown? h (.inl hstate)
  have hcaller := caller_eq h (by simp [hd]) hfirst
  have hmem : .abandon first ∈ es ++ [e] ↔ .abandon first ∈ es := by
    rcases he with rfl | rfl <;> simp
  simp only [settlements, firstShutdown?_concat, hfirst, Option.some_or, hmem, close, hcaller,
    if_neg (hs.signal_ne_absent (.inr hstate))]
  split <;> rfl

theorem filter_isSettlement (h : (bound secured).run? es = some (s, told)) :
    told.filter Report.isSettlement = settlements es s := by
  induction h using run?_induction with
  | nil => rfl
  | @snoc es t told e u reports before after hstep ih =>
    have hs := sound_of_run? before
    rw [List.filter_append, ih]
    by_cases hclosed : t.state = .closed
    · obtain ⟨first, hfirst⟩ := exists_firstShutdown? before (.inr hclosed)
      obtain ⟨rfl, ⟨rfl, rfl⟩ | ⟨call, rfl, rfl⟩⟩ := hs.step_of_closed hclosed hstep
      all_goals simp [settlements, firstShutdown?_concat, hfirst, Report.isSettlement]
    rw [settlements_of_not_closed before hclosed, List.nil_append]
    cases hstep with
    | closedUnused call hstate =>
      have hnone := (firstShutdown?_eq_none_iff before).mpr (.inl hstate)
      simp [settlements, firstShutdown?_concat, hnone, hs.unstarted hstate, Event.shutdown?,
        Report.isSettlement]
    | drained he hd =>
      rw [settlements_close before hd he]
      simp [close, Report.isSettlement]
    | cleared hd =>
      rw [settlements_close before hd (.inr rfl)]
      simp [close, Report.isSettlement]
    | started | shutdownBegun => rw [settlements_of_not_closed after (by simp)]; rfl
    | _ =>
      rw [settlements_of_not_closed after (by simpa using hclosed)]
      simp [Report.isSettlement]

/-! ## Every interleaving -/

/-- How the calls of a run stand, which has come to `s` and has `told` what calls came to. -/
structure Serialised (es : List Event) (told : List Report) (s : Server) : Prop where
  /-- Whatever comes, the state does not go back, and a closed server stays closed. -/
  forward : ∀ later t more, s.run? later = some (t, more) →
    s.state ≤ t.state ∧ (s.state = .closed → t.state = .closed)
  /-- One call to start is granted at the most. -/
  once : told.countP Report.isGrant ≤ 1
  /-- A call to start is granted if none was, and no call to shut down came before it. -/
  granted : .start (.ok ()) ∉ told → firstShutdown? es = none →
    ∃ t, s.step? .start = some (t, [.start (.ok ())]) ∧ t.state = .serving
  /-- Any other learns the state, and changes nothing. -/
  refused : .start (.ok ()) ∈ told ∨ firstShutdown? es ≠ none →
    s.step? .start = some (s, [.start (.error (.invalidState s.state))])
  /-- The first call to shut down closes the server if no start was granted. -/
  unused : .start (.ok ()) ∉ told → firstShutdown? es = none → ∀ call,
    ∃ t, s.step? (.shutdown call) = some (t, [.shutdown call .notStarted]) ∧ t.state = .closed
  /-- It waits for the drain otherwise. -/
  begun : .start (.ok ()) ∈ told → firstShutdown? es = none → ∀ call,
    ∃ t, s.step? (.shutdown call) = some (t, []) ∧ t.state = .shuttingDown ∧ t.caller = some call
  /-- Any later call learns that it is late, and changes nothing. -/
  late : firstShutdown? es ≠ none → ∀ call,
    s.step? (.shutdown call) = some (s, [.shutdown call .alreadyClosed])
  /-- Without a call to shut down nobody is told of a shutdown. -/
  uncalled : firstShutdown? es = none → told.filter Report.isSettlement = []
  /-- The first call alone is not told that it is late: it learns that there was no start, ... -/
  notStarted : ∀ call, firstShutdown? es = some call → .start (.ok ()) ∉ told →
    told.filter Report.isSettlement = [.shutdown call .notStarted]
  /-- ... or else the outcome of the drain, unless it was given up. -/
  drained : ∀ call, firstShutdown? es = some call → .start (.ok ()) ∈ told →
    told.filter Report.isSettlement =
      if .abandon call ∈ es then [] else s.outcome.toList.map (.shutdown call)
  /-- A drain can always be brought to its end, whatever the clients and the handlers do, ... -/
  closable : s.state = .shuttingDown → s.Closable
  /-- ... and then it has an outcome. -/
  outcome : s.outcome = none ∨ s.outcome = some .drained ∨ s.outcome = some .timedOut
  closed : .start (.ok ()) ∈ told → (s.state = .closed ↔ s.outcome ≠ none)

/-- Before a shutdown, a server serves exactly if a start was granted. -/
theorem granted_iff_serving (h : (bound secured).run? es = some (s, told))
    (hfirst : firstShutdown? es = none) : .start (.ok ()) ∈ told ↔ s.state = .serving := by
  have hs := sound_of_run? h
  rw [granted_iff h]
  rcases (firstShutdown?_eq_none_iff h).mp hfirst with hstate | hstate
  · simp [hstate, hs.unstarted hstate]
  · simp [hstate, hs.signal_ne_absent (.inl hstate)]

/-- **Calls are serialised.**  In every state of every run, whatever calls, events of the drain and of
connections it is made of and in whatever order, the calls stand as `Serialised` says. -/
theorem serialised_of_run? (h : (bound secured).run? es = some (s, told)) :
    Serialised es told s := by
  have hs := sound_of_run? h
  have hunstarted : .start (.ok ()) ∉ told → firstShutdown? es = none → s.state = .unstarted := by
    intro hnone hfirst
    refine ((firstShutdown?_eq_none_iff h).mp hfirst).resolve_right fun hstate => ?_
    exact hnone ((granted_iff_serving h hfirst).mpr hstate)
  constructor
  case forward =>
    intro later t more hlater
    have hle := le_state_of_run? hlater
    exact ⟨hle, fun hclosed => State.eq_closed_of_le (hclosed ▸ hle)⟩
  case once => exact countP_isGrant_le h
  case granted =>
    intro hnone hfirst
    simp [step?, start_of_unstarted (hunstarted hnone hfirst)]
  case refused =>
    intro hlate
    have hstate : s.state ≠ .unstarted := by
      intro hstate
      rcases hlate with hgranted | hfirst
      · exact (granted_iff h).mp hgranted (hs.unstarted hstate)
      · exact hfirst ((firstShutdown?_eq_none_iff h).mpr (.inl hstate))
    simp [step?, start_of_called hstate]
  case unused =>
    intro hnone hfirst call
    simp [step?, shutdown_of_unstarted call (hunstarted hnone hfirst)]
  case begun =>
    intro hgranted hfirst call
    simp [step?, shutdown_of_serving call ((granted_iff_serving h hfirst).mp hgranted)]
  case late =>
    intro hfirst call
    simp [step?, shutdown_of_called call ((firstShutdown?_ne_none_iff h).mp hfirst)]
  case uncalled =>
    intro hfirst
    simp [filter_isSettlement h, settlements, hfirst]
  case notStarted =>
    intro call hfirst hnone
    have habsent : s.signal = .absent := by simpa [granted_iff h] using hnone
    simp [filter_isSettlement h, settlements, hfirst, habsent]
  case drained =>
    intro call hfirst hgranted
    simp [filter_isSettlement h, settlements, hfirst, (granted_iff h).mp hgranted]
  case closable => exact hs.closable
  case outcome => exact outcome_cases h
  case closed =>
    intro hgranted
    simp [outcome_ne_none_iff h, (granted_iff h).mp hgranted]

/-- A life with calls that cross: two to start, two to shut down, and a third whose caller does not
stay until the drain is over. -/
def crossedCalls : List Event :=
  [.start, .start, .shutdown 0, .shutdown 1, .abandon 0, .drainStart, .loopStop, .shutdown 2, .joined,
    .drainEnd, .start]

theorem serialised_crossedCalls :
    ∃ s told, (bound false).run? crossedCalls = some (s, told) ∧
      told.filter Report.isSettlement = [] ∧ told.countP Report.isGrant = 1 ∧
      s.outcome = some .drained ∧ Serialised crossedCalls told s := by
  let s : Server := {
    state := .closed, listening := false, stopSignal := true, outcome := some .drained
    signal := .resolved none }
  let told : List Report :=
    [.start (.ok ()), .start (.error (.invalidState .serving)), .shutdown 1 .alreadyClosed,
      .shutdown 2 .alreadyClosed, .start (.error (.invalidState .closed))]
  have h : (bound false).run? crossedCalls = some (s, told) := rfl
  exact ⟨s, told, h, rfl, rfl, rfl, serialised_of_run? h⟩

end DataRepository.Server
