import DataRepository.Proofs.Exchange.Commands

/-! # Failed requests

A request that does not succeed leaves no trace. A command that fails is answered by a
failure before it has changed anything, and all other failures are answered without a
command, among them that the time of the request is up. -/
namespace DataRepository.Exchange

open Http (Request Response)
open Access (Gate)
open Resource (Command Operation)

variable {late : Bool} {g : Gate} {now : UInt64} {r : Request} {s : Store} {c : Command}

/-! ## Commands that fail -/

theorem succeeded_sent (m : Http.Method) (a : Response) :
    (Routing.sent m a).succeeded = a.succeeded := by
  simp only [Response.succeeded, status_sent]

/-- A command succeeds, or is answered by a failure and changes nothing. -/
theorem run_cases (c : Command) (s : Store) :
    (c.run s).1.succeeded = true ∨ ∃ f : Failure, c.run s = (f.response, s) := by
  cases c with
  | query key =>
    cases hget : s.get? key with
    | some doc =>
      left
      simp only [Command.run, hget]
      rfl
    | none =>
      refine .inr ⟨.notFound ("no data stored at " ++ key), ?_⟩
      simp only [Command.run, hget]
      rfl
  | replace key location doc =>
    left
    cases hget : s.get? key <;> simp only [Command.run, Store.put, hget] <;> rfl
  | modify key patch =>
    cases hget : s.get? key with
    | none =>
      refine .inr ⟨.notFound ("no data stored at " ++ key), ?_⟩
      simp only [Command.run, Store.patch, hget]
      rfl
    | some doc =>
      cases hnew : Patch.patched doc patch with
      | ok new =>
        left
        simp only [Command.run, Store.patch, hget, hnew]
        rfl
      | error why =>
        refine .inr ⟨.badRequest why.text, ?_⟩
        simp only [Command.run, Store.patch, hget, hnew]
        rfl
  | remove key => exact .inl rfl

theorem run_failed (h : (c.run s).1.succeeded = false) : (c.run s).2 = s := by
  obtain hsucceeded | ⟨f, hrun⟩ := run_cases c s
  · rw [h] at hsucceeded
    cases hsucceeded
  · rw [hrun]

/-! ## Requests that fail -/

theorem attend_of_timesOut (h : timesOut late g now r = true) :
    attend late g now r s = (Routing.sent r.method timedOut, s) := by
  simp only [attend, planWithin, h, if_true, Plan.run]

theorem attend_of_not_timesOut (h : timesOut late g now r = false) :
    attend late g now r s = serve g now r s := by
  simp only [attend, planWithin, h, Bool.false_eq_true, if_false, serve]

/-- **A failed request leaves no trace**, and neither does one that only reads, whether it is served or
its time is up. -/
theorem failed_leaves_store (late : Bool) (g : Gate) (now : UInt64) (r : Request) (s : Store) :
    ((attend late g now r s).1.succeeded = false → (attend late g now r s).2 = s) ∧
      (r.method = .get ∨ r.method = .head → (attend late g now r s).2 = s) := by
  cases hlate : timesOut late g now r with
  | true =>
    rw [attend_of_timesOut hlate]
    exact ⟨fun _ => rfl, fun _ => rfl⟩
  | false =>
    rw [attend_of_not_timesOut hlate]
    simp only [serve, succeeded_sent]
    cases hplan : plan g now r with
    | answer a => exact ⟨fun _ => rfl, fun _ => rfl⟩
    | execute c =>
      refine ⟨run_failed, fun hmethod => ?_⟩
      obtain ⟨op, hasked⟩ := exists_asked hplan
      obtain ⟨key, rfl⟩ := query_of_asked hasked hmethod
      rfl

end DataRepository.Exchange
