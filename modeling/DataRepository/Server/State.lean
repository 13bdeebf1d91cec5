/-!
# States of the server

A server is bound when it is made; it then serves, shuts down and is closed, in this order.
-/
namespace DataRepository.Server

inductive State where
  | unstarted
  | serving
  | shuttingDown
  | closed
deriving DecidableEq

namespace State

def name : State → String
  | unstarted => "Unstarted"
  | serving => "Serving"
  | shuttingDown => "ShuttingDown"
  | closed => "Closed"

/-- How far along its life a server is. -/
def rank : State → Nat
  | unstarted => 0
  | serving => 1
  | shuttingDown => 2
  | closed => 3

instance : LE State := ⟨fun s t => s.rank ≤ t.rank⟩

instance (s t : State) : Decidable (s ≤ t) := inferInstanceAs (Decidable (s.rank ≤ t.rank))

theorem le_refl (s : State) : s ≤ s := Nat.le_refl s.rank

theorem le_trans {s t u : State} (h : s ≤ t) (h' : t ≤ u) : s ≤ u :=
  @Nat.le_trans s.rank t.rank u.rank h h'

theorem le_closed (s : State) : s ≤ closed := by cases s <;> decide

theorem eq_closed_of_le {s : State} (h : closed ≤ s) : s = closed := by
  revert h; cases s <;> decide

end State

inductive Outcome where
  | drained
  | timedOut
  | notStarted
  | alreadyClosed
deriving DecidableEq

def Outcome.name : Outcome → String
  | drained => "Drained"
  | timedOut => "TimedOut"
  | notStarted => "NotStarted"
  | alreadyClosed => "AlreadyClosed"

end DataRepository.Server
