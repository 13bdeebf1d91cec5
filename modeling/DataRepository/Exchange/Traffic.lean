import DataRepository.Exchange

/-!
# Exchanges at the same time

Requests that are served together over one store.  The exchange of each goes through four steps: it
passes the gate, its body is read, its plan is carried out, and it is answered.  Between two steps of
one exchange there may be any steps of the others.  Only carrying out a plan touches the store, and
that is one step.

- `Traffic.run_alone`: the steps of a single exchange, one after the other, are what `serve` does.
-/
namespace DataRepository.Exchange

open Access (Gate)
open Http (Request Response)

/-! ## One exchange -/

/-- How far an exchange has come. -/
inductive Stage where
  | arrived
  | judged (way : Routing.Passage Resource.Operation)
  | planned (plan : Plan)
  | carriedOut (response : Response)
  | answered (response : Response)

def Stage.isPlanned : Stage → Bool
  | planned _ => true
  | _ => false

/-- An exchange under way. -/
structure Flight where
  request : Request
  stage : Stage := .arrived

/-- The next step of an exchange, which may change the store. -/
def Flight.next (g : Gate) (now : UInt64) (f : Flight) (s : Store) : Flight × Store :=
  match f.stage with
  | .arrived => ({ f with stage := .judged (passage g now f.request) }, s)
  | .judged way => ({ f with stage := .planned (planFor f.request.target.location way) }, s)
  | .planned plan =>
    let (response, s) := plan.run s
    ({ f with stage := .carriedOut response }, s)
  | .carriedOut response =>
    ({ f with stage := .answered (Routing.sent f.request.method response) }, s)
  | .answered _ => (f, s)

/-! ## Many exchanges -/

structure Traffic where
  store : Store
  flights : List Flight
  /-- The positions of the exchanges whose plans have been carried out, in that order. -/
  order : List Nat := []

namespace Traffic

def ofRequests (s : Store) (rs : List Request) : Traffic where
  store := s
  flights := rs.map fun r => { request := r }

/-- The next step of the exchange at position `i`. -/
def step (g : Gate) (now : UInt64) (t : Traffic) (i : Nat) : Traffic :=
  match t.flights[i]? with
  | none => t
  | some f =>
    let (after, s) := f.next g now t.store
    { store := s
      flights := t.flights.set i after
      order := if f.stage.isPlanned then t.order ++ [i] else t.order }

/-- Steps of the exchanges at these positions, one after the other. -/
def run (g : Gate) (now : UInt64) (t : Traffic) (schedule : List Nat) : Traffic :=
  schedule.foldl (step g now) t

/-- The response of the exchange at position `i`, once it has been answered. -/
def response? (t : Traffic) (i : Nat) : Option Response :=
  match t.flights[i]? with
  | some ⟨_, .answered response⟩ => some response
  | _ => none

/-- **The steps of a single exchange, one after the other, are what `serve` does.** -/
theorem run_alone (g : Gate) (now : UInt64) (r : Request) (s : Store) :
    let t := run g now (ofRequests s [r]) [0, 0, 0, 0]
    t.response? 0 = some (serve g now r s).1 ∧ t.store = (serve g now r s).2 ∧ t.order = [0] :=
  ⟨rfl, rfl, rfl⟩

end Traffic

end DataRepository.Exchange
