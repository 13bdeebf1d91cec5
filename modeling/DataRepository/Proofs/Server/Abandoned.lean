import DataRepository.Proofs.Server.Calls

/-!
# Shutdowns that are given up

The drain belongs to the server and not to the call that set it off: who waits for it is read in one
place only, when the drain has ended and its outcome is told.  So a server that nobody waits for goes
the same way as one with a waiting call, step for step (`step?_unawaited`) and run for run
(`run?_unawaited`), and the reports differ by the outcome that this call would have learnt.
-/
namespace DataRepository.Server

variable {secured : Bool} {s t : Server} {e : Event} {es : List Event} {reports told : List Report}
  {call : Nat}

/-- The server when nobody waits for its drain. -/
def unawaited (s : Server) : Server := { s with caller := none }

/-- Whether a report tells the call how the shutdown went that it has called for; that it came too late
is another thing. -/
def Report.isOutcomeOf (call : Nat) : Report → Bool
  | .shutdown c o => c = call ∧ o ≠ .alreadyClosed
  | .start _ => false

/-- A server and its reports as they are when the call has been given up. -/
def unheard (call : Nat) (run : Server × List Report) : Server × List Report :=
  (run.1.unawaited, run.2.filter (! ·.isOutcomeOf call))

/-- A shutdown has begun, and no other call than this one waits for it. -/
structure AwaitedBy (s : Server) (call : Nat) : Prop where
  called : s.state = .shuttingDown ∨ s.state = .closed
  caller : s.caller = none ∨ s.caller = some call

theorem Sound.awaitedBy (hs : s.Sound) (hcaller : s.caller = some call) : s.AwaitedBy call where
  called := .inl (hs.drain.mp (hs.caller (by simp [hcaller])))
  caller := .inr hcaller

theorem AwaitedBy.step (h : s.AwaitedBy call) (hstep : Step s e t reports) : t.AwaitedBy call := by
  cases hstep with
  | started hs | closedUnused _ hs | shutdownBegun _ hs =>
    have hcalled := h.called
    simp [hs] at hcalled
  | abandoned => exact ⟨h.called, .inl rfl⟩
  | drained | cleared => exact ⟨.inr rfl, .inl rfl⟩
  | _ => exact ⟨h.called, h.caller⟩

/-! ## Steps and runs -/

theorem unheard_close (s : Server) {o : Outcome} (ho : o ≠ .alreadyClosed)
    (hcaller : s.caller = none ∨ s.caller = some call) :
    unheard call (s.close o) = s.unawaited.close o := by
  rcases hcaller with hcaller | hcaller <;>
    simp [unheard, close, unawaited, hcaller, Report.isOutcomeOf, ho]

/-- Whoever waits for it, a server in a shutdown does the same at every event. -/
theorem step?_unawaited (h : s.AwaitedBy call) (he : e ≠ .abandon call) :
    s.unawaited.step? e = (s.step? e).map (unheard call) := by
  have hcalled : s.unawaited.state = .shuttingDown ∨ s.unawaited.state = .closed := h.called
  cases e with
  | start =>
    have hlate : ∀ t : Server, t.state = .shuttingDown ∨ t.state = .closed → t.state ≠ .unstarted := by
      intro t ht hunstarted
      simp [hunstarted] at ht
    simp only [step?, start_of_called (hlate s h.called), start_of_called (hlate _ hcalled)]
    rfl
  | shutdown other =>
    simp only [step?, shutdown_of_called other h.called, shutdown_of_called other hcalled]
    simp [unheard, Report.isOutcomeOf]
  | abandon other =>
    have hother : s.caller ≠ some other := by
      rcases h.caller with hcaller | hcaller
      · simp [hcaller]
      · rw [hcaller, Ne, Option.some.injEq]
        rintro rfl
        exact he rfl
    simp only [step?, if_neg hother]
    rfl
  | accept => by_cases ha : s.accepting = true <;> simp [step?, unawaited, unheard, ha]
  | acceptFault ofConnection cause =>
    by_cases ha : s.accepting = true <;> cases ofConnection <;> simp [step?, unawaited, unheard, ha]
  | loopStop =>
    by_cases hstop : s.accepting = true ∧ s.stopSignal = true <;>
      simp [step?, unawaited, unheard, hstop]
  | on id event =>
    simp only [step?, unawaited]
    cases s.connections.find? (·.id = id) with
    | none => rfl
    | some c =>
      cases hturn : c.turn? s.stopSignal s.forceSignal s.entered event with
      | none => simp [hturn]
      | some t => simp [hturn, unheard, turn, unawaited]
  | drainStart => by_cases hd : s.drain = some .called <;> simp [step?, unawaited, unheard, hd]
  | joined =>
    by_cases hd : s.drain = some .stopping ∧ s.accepting = false <;>
      simp [step?, unawaited, unheard, hd]
  | deadline =>
    by_cases hd : s.drain = some .waiting
    · by_cases hc : s.connections = []
      · simp [step?, unawaited, hd, hc, unheard_close (o := .drained) s (by simp) h.caller]
      · simp [step?, unawaited, unheard, hd, hc]
    · simp [step?, unawaited, hd]
  | drainEnd =>
    by_cases hc : s.connections = []
    · cases hd : s.drain with
      | none => simp [step?, unawaited, hc, hd]
      | some d =>
        cases d with
        | called | stopping => simp [step?, unawaited, hc, hd]
        | waiting => simp [step?, unawaited, hc, hd, unheard_close (o := .drained) s (by simp) h.caller]
        | forcing => simp [step?, unawaited, hc, hd, unheard_close (o := .timedOut) s (by simp) h.caller]
    · simp [step?, unawaited, hc]

/-- Nobody can give up waiting where nobody waits. -/
theorem step?_abandon_unawaited (s : Server) (call : Nat) :
    s.unawaited.step? (.abandon call) = none := by
  simp [step?, unawaited]

/-- Whoever waits for it, a server in a shutdown does the same all along a run. -/
theorem run?_unawaited (h : s.AwaitedBy call) (es : List Event) :
    s.unawaited.run? es =
      if .abandon call ∈ es then none else (s.run? es).map (unheard call) := by
  induction es generalizing s with
  | nil => rfl
  | cons e es ih =>
    by_cases he : e = .abandon call
    · rw [if_pos (he ▸ List.mem_cons_self), he, run?, step?_abandon_unawaited]
      rfl
    · have hmem : .abandon call ∈ e :: es ↔ .abandon call ∈ es := by simp [Ne.symm he]
      simp only [run?, step?_unawaited h he, hmem]
      cases hstep : s.step? e with
      | none => simp
      | some next =>
        obtain ⟨t, reports⟩ := next
        have hrest := ih (h.step (step_of_step? hstep))
        simp only [Option.map_some, unheard, Option.bind_eq_bind, Option.bind_some, hrest]
        by_cases hes : .abandon call ∈ es
        · simp [hes]
        · cases t.run? es <;> simp [hes, unheard]

/-! ## Giving up -/

/-- No call has learnt how a shutdown went that is still going on. -/
theorem filter_isOutcomeOf (h : (bound secured).run? es = some (s, told))
    (hstate : s.state ≠ .closed) : told.filter (! ·.isOutcomeOf call) = told := by
  have hnone : told.filter Report.isSettlement = [] := by
    rw [filter_isSettlement h, settlements_of_not_closed h hstate]
  refine List.filter_eq_self.mpr fun r hr => ?_
  have hr := List.filter_eq_nil_iff.mp hnone r hr
  cases r with
  | start => rfl
  | shutdown c o => simp_all [Report.isSettlement, Report.isOutcomeOf]

theorem unheard_append (call : Nat) (told : List Report) (run : Server × List Report) :
    unheard call (run.1, told ++ run.2) =
      ((unheard call run).1, told.filter (! ·.isOutcomeOf call) ++ (unheard call run).2) := by
  simp only [unheard, List.filter_append]

/-- A run goes on from where it has come to. -/
theorem run?_append_of (h : s.run? es = some (t, told)) (later : List Event) :
    s.run? (es ++ later) = (t.run? later).map fun run => (run.1, told ++ run.2) := by
  refine Option.ext fun ⟨u, all⟩ => ?_
  rw [run?_append, h, Option.map_eq_some_iff]
  constructor
  · intro hrun
    obtain ⟨_, _, more, hes, hlater, rfl⟩ := hrun
    cases hes
    exact ⟨(u, more), hlater, rfl⟩
  · intro hrun
    obtain ⟨⟨_, more⟩, hlater, heq⟩ := hrun
    cases heq
    exact ⟨t, told, more, rfl, hlater, rfl⟩

theorem step?_abandon (hcaller : s.caller = some call) :
    s.step? (.abandon call) = some (s.unawaited, []) := if_pos hcaller

theorem run?_abandon (hcaller : s.caller = some call) (later : List Event) :
    s.run? (.abandon call :: later) = s.unawaited.run? later := by
  rw [run?, step?_abandon hcaller]
  cases hrun : s.unawaited.run? later <;> simp [hrun]

/-- **A shutdown that is given up goes on as if it were waited for.** Whatever happens after that, the
server comes to the same at every point as if the call were still waiting: to the same state, with the
same connections, requests and signal, and all that it tells is the same but for the outcome that this
call would have learnt. And it can always be closed without anybody's help. -/
theorem run?_of_abandon (h : (bound secured).run? es = some (s, told))
    (hcaller : s.caller = some call) :
    (∀ later, (bound secured).run? (es ++ .abandon call :: later) =
        if .abandon call ∈ later then none
        else ((bound secured).run? (es ++ later)).map (unheard call)) ∧
      s.unawaited.Closable := by
  have hs := sound_of_run? h
  have hstate : s.state = .shuttingDown := hs.drain.mp (hs.caller (by simp [hcaller]))
  constructor
  · intro later
    rw [run?_append_of h, run?_append_of h, run?_abandon hcaller,
      run?_unawaited (hs.awaitedBy hcaller)]
    have htold : told.filter (! ·.isOutcomeOf call) = told :=
      filter_isOutcomeOf h (by simp [hstate])
    split
    · rfl
    · simp only [Option.map_map]
      refine congrArg (Option.map · _) (funext fun run => ?_)
      rw [Function.comp_apply, Function.comp_apply, unheard_append, htold]
  · exact (hs.step (step_of_step? (step?_abandon hcaller))).closable hstate

/-- A call that is given up while a request is held: the server is closed by the deadline, which cuts
the request off, and tells a second call that it is late. -/
theorem run?_of_abandon_held :
    let before : List Event := [.start, .accept, .on 0 .request, .shutdown 1]
    let later : List Event := [.drainStart, .shutdown 2, .loopStop, .on 0 .notice, .joined, .deadline,
      .on 0 .forced, .drainEnd]
    ∃ s t, (bound false).run? before = some (s, [.start (.ok ())]) ∧ s.caller = some 1 ∧
      (bound false).run? (before ++ later) =
        some (t, [.start (.ok ()), .shutdown 2 .alreadyClosed, .shutdown 1 .timedOut]) ∧
      (bound false).run? (before ++ .abandon 1 :: later) =
        some (t, [.start (.ok ()), .shutdown 2 .alreadyClosed]) ∧
      t.state = .closed ∧ t.cut = [0] := by
  intro before later
  let c : Connection := ⟨0, some { handling := [0] }⟩
  let s : Server := {
    state := .shuttingDown, accepting := true, connections := [c], accepted := 1, entered := 1
    drain := some .called, signal := .pending, caller := some 1 }
  let t : Server := {
    state := .closed, listening := false, stopSignal := true, forceSignal := true, accepted := 1
    entered := 1, cut := [0], outcome := some .timedOut, signal := .resolved none }
  have hbefore : (bound false).run? before = some (s, [.start (.ok ())]) := rfl
  have hlater : (bound false).run? (before ++ later) =
      some (t, [.start (.ok ()), .shutdown 2 .alreadyClosed, .shutdown 1 .timedOut]) := rfl
  have hrun := (run?_of_abandon hbefore rfl).1 later
  rw [hlater, if_neg (by decide)] at hrun
  exact ⟨s, t, hbefore, rfl, hlater, hrun, rfl, rfl⟩

end DataRepository.Server
