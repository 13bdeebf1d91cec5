import DataRepository.Proofs.Server.Closing

/-!
# A drain can always come to its end

Whatever its clients and handlers do or leave undone, a server that shuts down can be closed by what
it does itself and by the deadline: each stage of a drain leads to the next, and a connection that is
told to end at once does so after two events at the most, which is what the induction is on.
-/
namespace DataRepository.Server

variable {s t u : Server} {e : Event} {reports : List Report}

/-- Whether an event needs neither a call nor a peer nor a handler. -/
def Event.isOwn : Event → Bool
  | .loopStop | .drainStart | .joined | .deadline | .drainEnd => true
  | .on _ .notice | .on _ .forced => true
  | _ => false

/-- A server that can be closed without anybody's help. -/
def Closable (s : Server) : Prop :=
  ∃ later t told, (∀ e ∈ later, e.isOwn) ∧ s.run? later = some (t, told) ∧ t.state = .closed

theorem Closable.of_step (h : s.step? e = some (t, reports)) (he : e.isOwn) (ht : t.Closable) :
    s.Closable := by
  obtain ⟨later, u, told, hown, hrun, hstate⟩ := ht
  refine ⟨e :: later, u, reports ++ told, ?_, run?_cons.mpr ⟨t, reports, told, h, hrun, rfl⟩, hstate⟩
  simpa [he] using hown

theorem Closable.of_drainEnd {o : Outcome} (h : s.step? .drainEnd = some (s.close o)) :
    s.Closable :=
  .of_step h rfl ⟨[], _, [], nofun, rfl, rfl⟩

/-! ## Connections that are to end at once -/

/-- How many events it takes to end a connection. -/
def Connection.distance (c : Connection) : Nat :=
  match c.session with
  | none => 1
  | some session => if session.closing then 1 else 2

/-- There is always an event that brings a connection nearer to its end. -/
theorem exists_turn (c : Connection) (fresh : Nat) :
    ∃ e t, (e = .notice ∨ e = .forced) ∧ c.turn? true true fresh e = some t ∧
      (c.next? t).elim 0 Connection.distance < c.distance := by
  obtain ⟨id, session⟩ := c
  cases session with
  | none => exact ⟨.notice, { session := none }, .inl rfl, rfl, Nat.one_pos⟩
  | some s =>
    cases hc : s.closing with
    | true =>
      refine ⟨.forced, { session := none, cut := s.inFlight }, .inr rfl, ?_, ?_⟩
      · simp [Connection.turn?, Session.turn?, hc]
      · simp [Connection.next?, Connection.distance, hc]
    | false =>
      refine ⟨.notice, { session := some { s with closing := true } }, .inl rfl, ?_, ?_⟩
      · simp [Connection.turn?, Session.turn?, hc]
      · simp [Connection.next?, Connection.distance, hc]

/-- The induction is on how far the connections are from their end, all together. -/
theorem closable_of_forcing (hstop : s.stopSignal) (hforce : s.forceSignal)
    (hd : s.drain = some .forcing) : s.Closable := by
  induction hn : (s.connections.map Connection.distance).sum using Nat.strongRecOn
    generalizing s with
  | _ n ih =>
    cases hc : s.connections with
    | nil =>
      exact .of_drainEnd (o := .timedOut) (by simp [step?, hc, hd])
    | cons c cs =>
      obtain ⟨e, t, he, ht, hlt⟩ := exists_turn c s.entered
      have hstep : s.step? (.on c.id e) = some (s.turn c t, []) := by
        simp [step?, hc, hstop, hforce, ht]
      refine .of_step hstep (by rcases he with rfl | rfl <;> rfl) ?_
      refine ih _ ?_ hstop hforce hd rfl
      have hrest : ((c.next? t).toList.map Connection.distance).sum =
          (c.next? t).elim 0 Connection.distance := by
        cases c.next? t <;> simp
      rw [← hn, hc]
      simpa [turn, hc, hrest, Nat.add_comm] using hlt

/-! ## The stages of a drain -/

theorem closable_of_waiting (hs : s.Sound) (hd : s.drain = some .waiting) : s.Closable := by
  have hstop : s.stopSignal := by simpa [hd] using hs.stopping
  by_cases hc : s.connections = []
  · exact .of_drainEnd (o := .drained) (by simp [step?, hc, hd])
  · have hstep : s.step? .deadline =
        some ({ s with forceSignal := true, drain := some .forcing }, []) := by
      simp [step?, hd, hc]
    exact .of_step hstep rfl (closable_of_forcing hstop rfl rfl)

theorem closable_of_stopped (hs : s.Sound) (hd : s.drain = some .stopping)
    (ha : s.accepting = false) : s.Closable := by
  have hstep : s.step? .joined = some ({ s with drain := some .waiting }, []) := by
    simp [step?, hd, ha]
  exact .of_step hstep rfl (closable_of_waiting (hs.step (step_of_step? hstep)) rfl)

/-- The accept loop has to end first, unless a fault has ended it already. -/
theorem closable_of_stopping (hs : s.Sound) (hd : s.drain = some .stopping) : s.Closable := by
  cases ha : s.accepting with
  | false => exact closable_of_stopped hs hd ha
  | true =>
    have hstop : s.stopSignal := by simpa [hd] using hs.stopping
    have hstep : s.step? .loopStop = some
        ({ s with listening := false, accepting := false, signal := .resolved none }, []) := by
      simp [step?, ha, hstop]
    exact .of_step hstep rfl (closable_of_stopped (hs.step (step_of_step? hstep)) hd rfl)

/-- **Every shutdown can be completed**, whatever the clients and the handlers do. -/
theorem Sound.closable (hs : s.Sound) (hstate : s.state = .shuttingDown) : s.Closable := by
  obtain ⟨d, hd⟩ := Option.ne_none_iff_exists'.mp (hs.drain.mpr hstate)
  cases d with
  | called =>
    have hstep : s.step? .drainStart =
        some ({ s with stopSignal := true, drain := some .stopping }, []) := by
      simp [step?, hd]
    exact .of_step hstep rfl (closable_of_stopping (hs.step (step_of_step? hstep)) rfl)
  | stopping => exact closable_of_stopping hs hd
  | waiting => exact closable_of_waiting hs hd
  | forcing =>
    exact closable_of_forcing (by simpa [hd] using hs.stopping) (hs.force.mpr (.inl hd)) hd

end DataRepository.Server
