import DataRepository.Proofs.Server.Closing

/-!
# No request is lost

A request that has been taken up is in flight on one connection, or has come to one end: answered, given
up by its peer, or cut off (`perm_range`, from what a turn owes to the requests on a connection).
Requests are cut off only once the signal to end at once has been given, and it is given only when the
time for connections to end by themselves is over and some are open (`forceSignal_iff`).
-/
namespace DataRepository.Server

variable {secured : Bool} {s t mid : Server} {e : Event} {es later : List Event}
  {reports told more : List Report}

/-- The requests in flight on the connections of a server. -/
def inFlight (s : Server) : List Nat := s.connections.flatMap Connection.inFlight

/-- Each request that has been taken up, where it is or what has come of it. -/
def ledger (s : Server) : List Nat := s.inFlight ++ s.answered ++ s.forsaken ++ s.cut

/-- A request in flight is handled, or its response is being written. -/
theorem mem_inFlight {r : Nat} :
    r ∈ s.inFlight ↔ ∃ c ∈ s.connections, ∃ session, c.session = some session ∧
      (r ∈ session.handling ∨ r ∈ session.writing) := by
  rw [inFlight, List.mem_flatMap]
  refine exists_congr fun c => and_congr_right fun _ => ?_
  cases hs : c.session <;>
    simp [Connection.inFlight, Connection.requests, Session.inFlight, hs]

theorem inFlight_next? (c : Connection) (t : Turn) :
    (c.next? t).toList.flatMap Connection.inFlight = Connection.requests t.session := by
  cases hs : t.session <;> simp [Connection.next?, hs, Connection.inFlight, Connection.requests]

/-- A turn moves requests about in the ledger, and enters what it takes up. -/
theorem perm_ledger_turn {c : Connection} {e : Connection.Event} {t : Turn} {force : Bool}
    (hc : c ∈ s.connections) (ht : c.Accounted force s.entered e t) :
    (s.turn c t).ledger.Perm (s.ledger ++ t.taken) := by
  have hopen : s.inFlight.Perm
      (c.inFlight ++ (s.connections.erase c).flatMap Connection.inFlight) :=
    (List.perm_cons_erase hc).flatMap_right Connection.inFlight
  have hturn : (s.turn c t).ledger =
      (s.connections.erase c).flatMap Connection.inFlight ++ Connection.requests t.session ++
        (s.answered ++ t.answered) ++ (s.forsaken ++ t.forsaken) ++ (s.cut ++ t.cut) := by
    simp [ledger, inFlight, turn, inFlight_next?]
  rw [hturn, List.perm_iff_count]
  intro r
  have hmoved := List.perm_iff_count.mp ht.perm r
  have hleft := List.perm_iff_count.mp hopen r
  simp only [ledger, List.count_append] at hmoved hleft ⊢
  omega

theorem range_add_taken {c : Connection} {e : Connection.Event} {t : Turn} {force : Bool}
    (ht : c.Accounted force s.entered e t) :
    List.range (s.entered + t.taken.length) = List.range s.entered ++ t.taken := by
  rcases ht.taken with htaken | htaken <;> simp [htaken, List.range_succ]

/-- **No request is lost or counted twice**: the ledger has every request once that was taken up. -/
theorem perm_range (h : (bound secured).run? es = some (s, told)) :
    s.ledger.Perm (List.range s.entered) := by
  induction h using run?_induction with
  | nil => exact .refl _
  | @snoc es s told e t reports before _ hstep ih =>
    cases hstep with
    | accepted =>
      refine .trans (.of_eq ?_) ih
      cases s.secured <;>
        simp [ledger, inFlight, Connection.inFlight, Connection.requests, Session.inFlight]
    | turned hc ht =>
      have hturn := Connection.accounted_of_turn? ht
      refine (perm_ledger_turn hc hturn).trans ?_
      simpa [turn, range_add_taken hturn] using ih.append_right _
    | _ => exact ih

/-! ## What comes of requests -/

/-- A request was given up in a run: its own peer gave it up, or left, while it was in flight. -/
def GivenUp (secured : Bool) (es : List Event) (r : Nat) : Prop :=
  ∃ before c e later mid told, es = before ++ .on c.id e :: later ∧
    (bound secured).run? before = some (mid, told) ∧ c ∈ mid.connections ∧ r ∈ c.inFlight ∧
    (e = .breakOff ∨ e = .givenUp r)

theorem GivenUp.append {r : Nat} (h : GivenUp secured es r) (later : List Event) :
    GivenUp secured (es ++ later) r := by
  obtain ⟨before, c, e, after, mid, told, rfl, hrest⟩ := h
  exact ⟨before, c, e, after ++ later, mid, told, by simp, hrest⟩

/-- Nothing else makes a request forsaken. -/
theorem givenUp_of_forsaken {r : Nat} (h : (bound secured).run? es = some (s, told))
    (hr : r ∈ s.forsaken) : GivenUp secured es r := by
  induction h using run?_induction with
  | nil => simp [bound] at hr
  | @snoc es s told e t reports before _ hstep ih =>
    cases hstep with
    | @turned c e t hc ht =>
      rcases List.mem_append.mp hr with hr | hr
      · exact (ih hr).append _
      · obtain ⟨hflight, he⟩ := (Connection.accounted_of_turn? ht).forsaken r hr
        exact ⟨es, c, e, [], s, told, rfl, before, hc, hflight, he⟩
    | _ => exact (ih hr).append _

/-- A run passed its deadline in this state, and not all connections had ended by then. -/
def Overdue (secured : Bool) (es : List Event) (mid : Server) : Prop :=
  ∃ before later told, es = before ++ .deadline :: later ∧
    (bound secured).run? before = some (mid, told) ∧ mid.connections ≠ []

theorem Overdue.append (h : Overdue secured es mid) (later : List Event) :
    Overdue secured (es ++ later) mid := by
  obtain ⟨before, after, told, rfl, hrest⟩ := h
  exact ⟨before, after ++ later, told, by simp, hrest⟩

/-- The signal to end at once stays. -/
theorem forceSignal_of_run? (h : s.run? es = some (t, told)) (hs : s.forceSignal) :
    t.forceSignal := by
  induction h using run?_induction with
  | nil => exact hs
  | snoc _ _ hstep ih =>
    cases hstep with
    | overdue => rfl
    | _ => exact ih

/-- **Connections are told to end at once exactly if some are open when their time is over.** -/
theorem forceSignal_iff (h : (bound secured).run? es = some (s, told)) :
    s.forceSignal ↔ ∃ mid, Overdue secured es mid := by
  constructor
  · intro hforce
    induction h using run?_induction with
    | nil => simp [bound] at hforce
    | @snoc es s told e t reports before _ hstep ih =>
      cases hstep with
      | overdue _ hc => exact ⟨s, es, [], told, rfl, before, hc⟩
      | _ =>
        obtain ⟨mid, hmid⟩ := ih hforce
        exact ⟨mid, hmid.append _⟩
  · rintro ⟨mid, before, later, first, rfl, hmid, hc⟩
    obtain ⟨_, _, _, hbefore, hafter, -⟩ := run?_append.mp h
    cases hmid.symm.trans hbefore
    obtain ⟨next, _, _, hstep, hlater, -⟩ := run?_cons.mp hafter
    refine forceSignal_of_run? hlater ?_
    cases step_of_step? hstep with
    | overdue => rfl
    | drained _ _ hnone => exact absurd hnone hc

/-- Requests are cut off only by the signal to end at once. -/
theorem cut_eq_nil (h : (bound secured).run? es = some (s, told)) (hs : s.forceSignal = false) :
    s.cut = [] := by
  induction h using run?_induction with
  | nil => rfl
  | snoc _ _ hstep ih =>
    cases hstep with
    | turned _ ht =>
      have hcut := (Connection.accounted_of_turn? ht).cut
      simp_all [turn]
    | overdue => cases hs
    | _ => exact ih hs

/-- What has come of a request does not change. -/
theorem subset_of_run? (h : s.run? es = some (t, told)) :
    s.answered ⊆ t.answered ∧ s.forsaken ⊆ t.forsaken := by
  induction h using run?_induction with
  | nil => exact ⟨List.Subset.refl _, List.Subset.refl _⟩
  | snoc _ _ hstep ih =>
    cases hstep with
    | turned =>
      exact ⟨List.Subset.trans ih.1 (List.subset_append_left _ _),
        List.Subset.trans ih.2 (List.subset_append_left _ _)⟩
    | _ => exact ih

/-! ## The end of a drain -/

theorem mem_ledger {r : Nat} (h : (bound secured).run? es = some (s, told)) (hr : r < s.entered) :
    r ∈ s.inFlight ∨ r ∈ s.answered ∨ r ∈ s.forsaken ∨ r ∈ s.cut := by
  have hmem := (perm_range h).mem_iff.mpr (List.mem_range.mpr hr)
  simpa [ledger, or_assoc] using hmem

/-- A request that was taken up before the deadline and is cut off was in flight at it. -/
theorem inFlight_of_overdue {r : Nat} (h : (bound secured).run? es = some (s, told))
    (hmid : Overdue secured es mid) (hr : r < mid.entered) :
    r ∈ s.answered ∨ r ∈ s.forsaken ∨ r ∈ mid.inFlight := by
  obtain ⟨before, later, first, rfl, hbefore, hc⟩ := hmid
  obtain ⟨_, _, _, hbefore', hafter, -⟩ := run?_append.mp h
  cases hbefore.symm.trans hbefore'
  have hforce : mid.forceSignal = false := by
    obtain ⟨_, _, _, hstep, -, -⟩ := run?_cons.mp hafter
    have hs := sound_of_run? hbefore
    cases step_of_step? hstep with
    | overdue hd | drained _ hd =>
      grind [hs.force, hs.outcome, hs.state_of_drain hd]
  obtain ⟨hanswered, hforsaken⟩ := subset_of_run? hafter
  rcases mem_ledger hbefore hr with hr | hr | hr | hr
  · exact .inr (.inr hr)
  · exact .inl (hanswered hr)
  · exact .inr (.inl (hforsaken hr))
  · rw [cut_eq_nil hbefore hforce] at hr
    cases hr

/-- **A drain loses no request.**  If it ends in time, every request that was taken up has its complete
response, unless its own peer gave it up.  It is late exactly if a connection was still open when the
deadline passed; then too every request that was taken up has its response, unless its own peer gave it
up, or its handler was not done or its response not written at that moment. -/
theorem answered_of_outcome {o : Outcome} (h : (bound secured).run? es = some (s, told))
    (ho : s.outcome = some o) :
    (o = .drained ∨ o = .timedOut) ∧ (o = .timedOut ↔ ∃ mid, Overdue secured es mid) ∧
      (o = .drained → ∀ r < s.entered, r ∈ s.answered ∨ GivenUp secured es r) ∧
      ∀ mid, Overdue secured es mid → ∀ r < s.entered,
        r ∈ s.answered ∨ GivenUp secured es r ∨ mid.entered ≤ r ∨
          ∃ c ∈ mid.connections, ∃ session, c.session = some session ∧
            (r ∈ session.handling ∨ r ∈ session.writing) := by
  have hs := sound_of_run? h
  have hclosed := hs.outcome (by simp [ho])
  have hlate : o = .timedOut ↔ s.forceSignal := by
    have hdrain : s.drain = none := by simpa [hclosed] using hs.drain
    simp [hs.force, hdrain, ho]
  refine ⟨?_, hlate.trans (forceSignal_iff h), fun hdrained r hr => ?_, fun mid hmid r hr => ?_⟩
  · simpa [ho] using outcome_cases h
  · have hforce : s.forceSignal = false := by simpa [hdrained] using hlate
    have hopen : s.inFlight = [] := by simp [inFlight, (hs.ended hclosed).connections]
    rcases mem_ledger h hr with hr | hr | hr | hr
    · simp [hopen] at hr
    · exact .inl hr
    · exact .inr (givenUp_of_forsaken h hr)
    · simp [cut_eq_nil h hforce] at hr
  · rcases Nat.lt_or_ge r mid.entered with hlt | hge
    · rcases inFlight_of_overdue h hmid hlt with hr | hr | hr
      · exact .inl hr
      · exact .inr (.inl (givenUp_of_forsaken h hr))
      · exact .inr (.inr (.inr (mem_inFlight.mp hr)))
    · exact .inr (.inr (.inl hge))

/-- A life in which one request is answered while the server drains, and the handler of another is not
done when the deadline passes. -/
def heldRequest : List Event :=
  [.start, .accept, .on 0 .request, .accept, .on 1 .request, .shutdown 0, .drainStart, .on 0 .notice,
    .loopStop, .on 1 .notice, .joined, .on 0 (.handled 0), .on 0 (.written 0), .on 0 .finish, .deadline,
    .on 1 .forced, .drainEnd]

theorem answered_heldRequest :
    ∃ s, (bound false).run? heldRequest = some (s, [.start (.ok ()), .shutdown 0 .timedOut]) ∧
      s.outcome = some .timedOut ∧ s.answered = [0] ∧ s.cut = [1] ∧
      ∃ mid, Overdue false heldRequest mid := by
  let s : Server := {
    state := .closed, listening := false, stopSignal := true, forceSignal := true, accepted := 2
    entered := 2, answered := [0], cut := [1], outcome := some .timedOut, signal := .resolved none }
  have h : (bound false).run? heldRequest = some (s, [.start (.ok ()), .shutdown 0 .timedOut]) := rfl
  exact ⟨s, h, rfl, rfl, rfl, (answered_of_outcome h rfl).2.1.mp rfl⟩

end DataRepository.Server
