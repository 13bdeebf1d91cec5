import DataRepository.Exchange
import DataRepository.Proofs.Resource.Paths

/-! # Refused requests

A request that the gate refuses is answered before a handler runs, with the same
answer whatever the store holds, and leaves the store as it is. So a history reads
the same with its refused requests taken out (`serveAll_kept`). -/
namespace DataRepository

open Http (Request Response)
open Access (Gate)

/-- Whether the gate refuses a request that comes at time `now`. -/
def Access.Gate.refuses (g : Gate) (now : UInt64) (r : Request) : Bool :=
  match g.check r now with
  | .ok () => false
  | .error _ => true

namespace Exchange

variable {g : Gate} {now : UInt64} {r : Request} {s : Store}

/-! ## The way of a refused request -/

theorem exists_refusal (h : g.refuses now r = true) (r' : Request)
    (hr : r'.credential = r.credential) :
    ∃ why : Access.Denial, g.refusal? now r' = some (Failure.unauthorized why.text).response := by
  rw [Gate.refuses, ← g.check_congr hr now] at h
  cases hc : g.check r' now with
  | ok _ =>
    rw [hc] at h
    cases h
  | error why =>
    refine ⟨why, ?_⟩
    simp only [Gate.refusal?, hc]

theorem judgement_of_passed (h : g.refuses now r = false) :
    Routing.judgement [g.guard now] { r with target := Resource.table.localTarget r.target } =
      (["authorization"], none) := by
  have hcongr : g.check { r with target := Resource.table.localTarget r.target } now =
      g.check r now := g.check_congr rfl now
  unfold Gate.refuses at h
  split at h
  · rename_i hcheck
    simp only [Routing.judgement, Gate.guard, Gate.refusal?, hcongr, hcheck]
  · cases h

theorem judgement_of_refused (h : g.refuses now r = true) : ∃ why : Access.Denial,
    Routing.judgement [g.guard now] { r with target := Resource.table.localTarget r.target } =
      (["authorization"], some (Failure.unauthorized why.text).response) := by
  obtain ⟨why, hwhy⟩ :=
    exists_refusal h { r with target := Resource.table.localTarget r.target } rfl
  exact ⟨why, by simp only [Routing.judgement, Gate.guard, hwhy]⟩

/-- A refused request is told that its path names nothing, or it is turned away. -/
theorem reach_of_refused (h : g.refuses now r = true) :
    (¬ Resource.Exposed r.target.path ∧ (passage g now r).reach = .nowhere) ∨
      (Resource.Exposed r.target.path ∧
        ∃ answer, (passage g now r).reach = .stopped answer ∧ answer.status = 401) := by
  rw [← Resource.isSome_row?_iff]
  unfold passage Routing.Table.pass
  cases hrow : Resource.table.row? r.target.path with
  | none => exact .inl ⟨by simp, rfl⟩
  | some row =>
    refine .inr ⟨rfl, ?_⟩
    obtain ⟨why, hwhy⟩ := judgement_of_refused h
    simp only [hwhy]
    cases row.route? r.method with
    | none => exact ⟨_, rfl, rfl⟩
    | some route => exact ⟨_, rfl, rfl⟩

/-- What becomes of a request that no handler sees. -/
structure TurnedAway (g : Gate) (now : UInt64) (r : Request) : Prop where
  unhandled : ∀ route, (passage g now r).reach ≠ .route route
  unchanged : ∀ s, (serve g now r s).2 = s
  blind : ∀ s t, (serve g now r s).1 = (serve g now r t).1
  status : ∀ s, (serve g now r s).1.status = if Resource.Exposed r.target.path then 401 else 404

theorem status_sent (m : Http.Method) (a : Response) : (Routing.sent m a).status = a.status := by
  unfold Routing.sent
  split <;> rfl

theorem turnedAway (h : g.refuses now r = true) : TurnedAway g now r := by
  have hreach := reach_of_refused h
  have hplan : ∃ answer, plan g now r = .answer answer ∧
      answer.status = if Resource.Exposed r.target.path then 401 else 404 := by
    unfold plan planFor
    rcases hreach with ⟨hpath, hr⟩ | ⟨hpath, answer, hr, hstatus⟩
    · exact ⟨missing, by simp [hr, Routing.Passage.settled?], by rw [if_neg hpath]; rfl⟩
    · exact ⟨answer, by simp [hr, Routing.Passage.settled?], by rw [if_pos hpath, hstatus]⟩
  obtain ⟨answer, hplan, hstatus⟩ := hplan
  have hserve : ∀ s, serve g now r s = (Routing.sent r.method answer, s) := by
    intro s
    simp only [serve, hplan, Plan.run]
  refine ⟨?_, fun s => by rw [hserve], fun s t => by rw [hserve, hserve], fun s => ?_⟩
  · intro route hroute
    rcases hreach with ⟨-, hr⟩ | ⟨-, _, hr, -⟩ <;> rw [hr] at hroute <;> cases hroute
  · rw [hserve, status_sent, hstatus]

/-! ## Histories -/

theorem length_serveAll (g : Gate) (now : UInt64) (rs : List Request) (s : Store) :
    (serveAll g now rs s).1.length = rs.length := by
  induction rs generalizing s with
  | nil => rfl
  | cons r rs ih => simp only [serveAll, List.length_cons, ih]

/-- The requests of a history with their responses. -/
def transcript (g : Gate) (now : UInt64) (rs : List Request) (s : Store) : List (Request × Response) :=
  rs.zip (serveAll g now rs s).1

theorem serveAll_kept (g : Gate) (now : UInt64) (rs : List Request) (s : Store) :
    (serveAll g now (rs.filter (! g.refuses now ·)) s).2 = (serveAll g now rs s).2 ∧
      transcript g now (rs.filter (! g.refuses now ·)) s =
        (transcript g now rs s).filter (! g.refuses now ·.1) := by
  unfold transcript
  induction rs generalizing s with
  | nil => exact ⟨rfl, rfl⟩
  | cons r rs ih =>
    cases h : g.refuses now r with
    | true =>
      -- The store is the same after a refused request, so the rest of the history is too.
      have hs := (turnedAway h).unchanged s
      simpa [h, serveAll, hs] using ih s
    | false =>
      obtain ⟨hstore, hanswers⟩ := ih (serve g now r s).2
      simp [h, serveAll, hstore, hanswers]

/-- **Refused requests are turned away, and a history tells the same without them**: they reach no
handler and no document, and neither the store that is left nor the response to any other request
depends on them. -/
theorem refused_leave_no_trace (g : Gate) (now : UInt64) (rs : List Request) (s : Store) :
    (∀ r, g.refuses now r = true → TurnedAway g now r) ∧
      (serveAll g now rs s).1.length = rs.length ∧
      (serveAll g now (rs.filter (! g.refuses now ·)) s).2 = (serveAll g now rs s).2 ∧
      transcript g now (rs.filter (! g.refuses now ·)) s =
        (transcript g now rs s).filter (! g.refuses now ·.1) :=
  ⟨fun _ h => turnedAway h, length_serveAll g now rs s, serveAll_kept g now rs s⟩

end Exchange

end DataRepository
