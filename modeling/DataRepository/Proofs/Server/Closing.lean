import DataRepository.Proofs.Server.Steps

/-!
# A closed server

How the parts of a server go together in every state of a run (`Sound`): the drain with the state, the
listening socket with the accept loop, the signals with the drain.  A drain waits for the accept loop
before it looks at the connections, so a closed server has neither (`Sound.ended`), and nothing is left
that could happen to it.
-/
namespace DataRepository.Server

variable {secured : Bool} {s t : Server} {e : Event} {es later : List Event}
  {reports told more : List Report}

/-! ## What holds in every state -/

/-- What holds of the parts of a server between any two events. -/
structure Sound (s : Server) : Prop where
  drain : s.drain ≠ none ↔ s.state = .shuttingDown
  outcome : s.outcome ≠ none → s.state = .closed
  caller : s.caller ≠ none → s.drain ≠ none
  /-- A drain that looks at the connections has no accept loop beside it. -/
  accepting : s.accepting →
    s.state = .serving ∨ s.drain = some .called ∨ s.drain = some .stopping
  /-- Once started, the accept loop is what holds the socket. -/
  listening : s.listening ↔ s.state = .unstarted ∨ s.accepting
  pending : s.signal = .pending ↔ s.accepting
  absent : s.signal = .absent → s.state = .unstarted ∨ s.state = .closed
  unstarted : s.state = .unstarted → s.signal = .absent
  connections : s.connections ≠ [] → s.state = .serving ∨ s.state = .shuttingDown
  stop : s.stopSignal → s.state = .shuttingDown ∨ s.state = .closed
  stopping : s.drain = none ∨ s.drain = some .called ∨ s.stopSignal
  /-- The accept loop does not stop without a fault unless it is told to. -/
  quiet : s.signal = .resolved none → s.stopSignal
  force : s.forceSignal ↔ s.drain = some .forcing ∨ s.outcome = some .timedOut

theorem sound_bound (secured : Bool) : (bound secured).Sound := by
  constructor <;> simp [bound]

namespace Sound

theorem state_of_drain {d : Drain} (hs : s.Sound) (hd : s.drain = some d) :
    s.state = .shuttingDown :=
  hs.drain.mp (by simp [hd])

/-- There is a signal while the server has something to do. -/
theorem signal_ne_absent (hs : s.Sound) (hstate : s.state = .serving ∨ s.state = .shuttingDown) :
    s.signal ≠ .absent := by
  intro habsent
  rcases hs.absent habsent with h | h <;> simp [h] at hstate

theorem running (hs : s.Sound) (ha : s.accepting) :
    s.state = .serving ∨ s.state = .shuttingDown := by
  grind [hs.accepting ha, hs.drain]

theorem not_accepting (hs : s.Sound) (hd : s.drain = some .waiting ∨ s.drain = some .forcing) :
    s.accepting = false := by
  grind [hs.accepting, hs.drain]

/-- The end of the accept loop, which is without a fault only if it was told to stop. -/
theorem loopEnd {fault : Option Fault} (hs : s.Sound) (ha : s.accepting)
    (hstop : fault = none → s.stopSignal) :
    Sound { s with listening := false, accepting := false, signal := .resolved fault } :=
  { hs with
    accepting := by simp
    listening := by grind [hs.running ha]
    pending := by simp
    absent := by simp
    unstarted := by grind [hs.running ha]
    quiet := by simpa using hstop }

/-- The end of a drain that has found no connections. -/
theorem close {o : Outcome} (hs : s.Sound) (hd : s.drain = some .waiting ∨ s.drain = some .forcing)
    (ho : s.drain = some .forcing ↔ o = .timedOut) (hc : s.connections = []) :
    (s.close o).1.Sound where
  drain := by simp
  outcome := by simp
  caller := by simp
  accepting := by simp [Server.close, hs.not_accepting hd]
  listening := by grind [Server.close, hs.listening, hs.drain]
  pending := hs.pending
  absent := by simp
  unstarted := by simp
  connections := by simp [Server.close, hc]
  stop := by simp
  stopping := by simp
  quiet := hs.quiet
  force := by grind [Server.close, hs.force, hs.outcome, hs.drain]

/-- **Every step keeps a server sound.**  Each case is about the parts that it changes. -/
theorem step (hs : s.Sound) (h : Step s e t reports) : t.Sound := by
  cases h with
  | startRefused | shutdownRefused | connectionFault => exact hs
  | started hstate => exact { hs with
      drain := by grind [hs.drain]
      outcome := by grind [hs.outcome]
      accepting := by simp
      listening := by simp [hs.listening, hstate]
      pending := by simp
      absent := by simp
      unstarted := by simp
      connections := by simp
      stop := by grind [hs.stop]
      quiet := by simp }
  | closedUnused _ hstate => exact { hs with
      drain := by grind [hs.drain]
      outcome := by simp
      accepting := by grind [hs.running]
      listening := by grind [hs.running]
      absent := by simp
      unstarted := by simp
      connections := by grind [hs.connections]
      stop := by simp }
  | shutdownBegun _ hstate => exact { hs with
      drain := by simp
      outcome := by grind [hs.outcome]
      caller := by simp
      accepting := by simp
      listening := by simp [hs.listening, hstate]
      absent := by grind [hs.absent]
      unstarted := by simp
      connections := by simp
      stop := by simp
      stopping := by simp
      force := by grind [hs.force, hs.drain] }
  | abandoned => exact { hs with caller := by simp }
  | accepted ha => exact { hs with connections := fun _ => hs.running ha }
  | listenerFault _ ha => exact hs.loopEnd ha nofun
  | loopStopped ha hstop => exact hs.loopEnd ha fun _ => hstop
  | turned hc => exact { hs with connections := fun _ => hs.connections (List.ne_nil_of_mem hc) }
  | drainStarted hd => exact { hs with
      drain := by grind [hs.drain]
      caller := by simp
      accepting := by simp
      stop := by grind [hs.drain]
      stopping := by simp
      quiet := by simp
      force := by grind [hs.force] }
  | joined hd ha => exact { hs with
      drain := by grind [hs.drain]
      caller := by simp
      accepting := by simp [ha]
      stopping := by grind [hs.stopping]
      force := by grind [hs.force] }
  | overdue hd => exact { hs with
      drain := by grind [hs.drain]
      caller := by simp
      accepting := by grind [hs.not_accepting]
      stopping := by grind [hs.stopping]
      force := by simp }
  | drained _ hd hc => exact hs.close (.inl hd) (by simp [hd]) hc
  | cleared hd hc => exact hs.close (.inr hd) (by simp [hd]) hc

theorem run? (hs : s.Sound) (h : s.run? es = some (t, told)) : t.Sound := by
  induction h using run?_induction with
  | nil => exact hs
  | snoc _ _ hstep ih => exact ih.step hstep

end Sound

theorem sound_of_run? (h : (bound secured).run? es = some (s, told)) : s.Sound :=
  (sound_bound secured).run? h

/-! ## What is told of the accept loop -/

/-- A call to start has been granted exactly if there is something to be told. -/
theorem granted_iff (h : (bound secured).run? es = some (s, told)) :
    .start (.ok ()) ∈ told ↔ s.signal ≠ .absent := by
  induction h using run?_induction with
  | nil => simp [bound]
  | snoc before _ hstep ih =>
    have hs := sound_of_run? before
    rw [List.mem_append, ih]
    cases hstep with
    | started => simp
    | listenerFault _ ha | loopStopped ha => simp [hs.pending.mpr ha]
    | drained | cleared => simp [close]
    | _ => simp

/-- **The accept loop ends with the fault that has come over the listener**, and with no other. -/
theorem signal_eq_fault_iff (h : (bound secured).run? es = some (s, told))
    (f : Fault) :
    s.signal = .resolved (some f) ↔
      ∃ cause, .acceptFault false cause ∈ es ∧ f = .acceptLoop cause := by
  induction h using run?_induction with
  | nil => simp [bound]
  | snoc before _ hstep ih =>
    have hs := sound_of_run? before
    cases hstep with
    | started hstate => grind [hs.unstarted hstate]
    | listenerFault cause ha =>
      -- The loop was running, so nothing had been told yet.
      have hpending := hs.pending.mpr ha
      grind
    | loopStopped ha => grind [hs.pending.mpr ha]
    | drained he => rcases he with rfl | rfl <;> simpa using ih
    | _ => simpa using ih

/-! ## The end -/

theorem outcome_ne_none_iff (h : (bound secured).run? es = some (s, told)) :
    s.outcome ≠ none ↔ s.state = .closed ∧ s.signal ≠ .absent := by
  induction h using run?_induction with
  | nil => simp [bound]
  | snoc before _ hstep ih =>
    have hs := sound_of_run? before
    cases hstep with
    | started hstate | shutdownBegun _ hstate => simpa [hstate] using ih
    | closedUnused _ hstate => simpa [hstate, hs.unstarted hstate] using ih
    | listenerFault _ ha | loopStopped ha => simpa [hs.pending.mpr ha] using ih
    | drained _ hd | cleared hd => simp [hs.signal_ne_absent (.inr (hs.state_of_drain hd))]
    | _ => simpa using ih

theorem outcome_cases (h : (bound secured).run? es = some (s, told)) :
    s.outcome = none ∨ s.outcome = some .drained ∨ s.outcome = some .timedOut := by
  induction h using run?_induction with
  | nil => simp [bound]
  | snoc _ _ hstep ih =>
    cases hstep with
    | drained | cleared => simp
    | _ => simpa using ih

/-- A server at its end: nothing of it is left, and nothing can happen to it but calls that change
nothing. -/
structure Ended (s : Server) : Prop where
  listening : s.listening = false
  accepting : s.accepting = false
  connections : s.connections = []
  still : ∀ e t reports, s.step? e = some (t, reports) →
    t = s ∧ (e = .start ∨ ∃ call, e = .shutdown call)

/-- What can happen to a closed server. -/
theorem Sound.step_of_closed (hs : s.Sound) (hstate : s.state = .closed) (h : Step s e t reports) :
    t = s ∧ (e = .start ∧ reports = [.start (.error (.invalidState .closed))] ∨
      ∃ call, e = .shutdown call ∧ reports = [.shutdown call .alreadyClosed]) := by
  have hdrain : s.drain = none := by simpa [hstate] using hs.drain
  have hcaller : s.caller = none := by simpa [hdrain] using hs.caller
  have hconnections : s.connections = [] := by simpa [hstate] using hs.connections
  have haccepting : s.accepting = false := by simpa [hstate, hdrain] using hs.accepting
  cases h with
  | startRefused => exact ⟨rfl, .inl ⟨rfl, by rw [hstate]⟩⟩
  | shutdownRefused call => exact ⟨rfl, .inr ⟨call, rfl, rfl⟩⟩
  | started hs | closedUnused _ hs | shutdownBegun _ hs => simp [hstate] at hs
  | abandoned _ hc => simp [hcaller] at hc
  | accepted ha | connectionFault _ ha | listenerFault _ ha | loopStopped ha =>
    simp [haccepting] at ha
  | turned hc => simp [hconnections] at hc
  | drainStarted hd | joined hd | overdue hd | drained _ hd | cleared hd => simp [hdrain] at hd

theorem Sound.ended (hs : s.Sound) (hstate : s.state = .closed) : s.Ended where
  listening := by grind [hs.listening, hs.running]
  accepting := by grind [hs.running]
  connections := by simpa [hstate] using hs.connections
  still e t reports h := by
    obtain ⟨rfl, ⟨rfl, -⟩ | ⟨call, rfl, -⟩⟩ := hs.step_of_closed hstate (step_of_step? h)
    · exact ⟨rfl, .inl rfl⟩
    · exact ⟨rfl, .inr ⟨call, rfl⟩⟩

theorem Ended.run? (hs : s.Ended) (h : s.run? later = some (t, more)) : t = s := by
  induction later generalizing more with
  | nil => cases h; rfl
  | cons e later ih =>
    obtain ⟨next, _, _, hstep, hrest, -⟩ := run?_cons.mp h
    obtain ⟨rfl, -⟩ := hs.still e next _ hstep
    exact ih hrest

/-- **Closed means closed.**  In every state of a run that is closed, the socket is released, the accept
loop and all connections have ended, and nothing changes any more.  Unless the listener fails, the
signal that a granted start returns tells of no fault: it is pending while the server serves, and has
come to its end when the server is closed. -/
theorem ended_of_closed (h : (bound secured).run? es = some (s, told)) :
    (s.state = .closed → s.Ended ∧ ∀ later t more, s.run? later = some (t, more) → t = s) ∧
      ((∀ cause, .acceptFault false cause ∉ es) →
        (∀ fault, s.signal ≠ .resolved (some fault)) ∧
          (s.state = .serving → s.signal = .pending) ∧
          (s.state = .closed → .start (.ok ()) ∈ told → s.signal = .resolved none)) := by
  have hs := sound_of_run? h
  refine ⟨fun hstate => ?_, fun hfault => ?_⟩
  · have hend := hs.ended hstate
    exact ⟨hend, fun _ _ _ hlater => hend.run? hlater⟩
  have hsound : ∀ fault, s.signal ≠ .resolved (some fault) := by
    intro fault hsignal
    obtain ⟨cause, hmem, -⟩ := (signal_eq_fault_iff h fault).mp hsignal
    exact hfault cause hmem
  refine ⟨hsound, fun hstate => ?_, fun hstate hgranted => ?_⟩
  · -- A serving server has not been told to stop, so its accept loop has no reason to end.
    cases hsignal : s.signal with
    | absent => simpa [hstate] using hs.absent hsignal
    | pending => rfl
    | resolved fault =>
      cases fault with
      | none => simpa [hstate] using hs.stop (hs.quiet hsignal)
      | some fault => exact absurd hsignal (hsound fault)
  · cases hsignal : s.signal with
    | absent => exact absurd hsignal ((granted_iff h).mp hgranted)
    | pending => simpa [(hs.ended hstate).accepting] using hs.pending.mp hsignal
    | resolved fault =>
      cases fault with
      | none => rfl
      | some fault => exact absurd hsignal (hsound fault)

/-- A life in which a connection is accepted after the shutdown is called for and before the accept
loop notices it, and a request is taken up on it. -/
def lateConnection : List Event :=
  [.start, .shutdown 0, .accept, .drainStart, .on 0 .secured, .on 0 .request, .loopStop, .joined,
    .on 0 .notice, .on 0 (.handled 0), .on 0 (.written 0), .on 0 .finish, .drainEnd]

theorem ended_lateConnection :
    ∃ s, (bound true).run? lateConnection = some (s, [.start (.ok ()), .shutdown 0 .drained]) ∧
      s.state = .closed ∧ s.answered = [0] ∧ s.Ended ∧ s.signal = .resolved none := by
  let s : Server := {
    secured := true, state := .closed, listening := false, stopSignal := true, accepted := 1
    entered := 1, answered := [0], outcome := some .drained, signal := .resolved none }
  have h : (bound true).run? lateConnection = some (s, [.start (.ok ()), .shutdown 0 .drained]) := rfl
  obtain ⟨hclosed, hsignal⟩ := ended_of_closed h
  refine ⟨s, h, rfl, rfl, (hclosed rfl).1, ?_⟩
  exact (hsignal (by simp [lateConnection])).2.2 rfl (by simp)

end DataRepository.Server
