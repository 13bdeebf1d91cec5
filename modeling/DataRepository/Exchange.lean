import DataRepository.Access.Gate
import DataRepository.Resource.Endpoints

/-!
# Exchanges

How a request becomes a response: the table finds its resource, the gate judges it, its body is read,
and one command is executed on the store.  Everything before the command depends on the request alone.
A request that has come to a handler may run out of time before its command is executed: then there is
no command, and the answer says so.
-/
namespace DataRepository

open Http (Request Response)
open Resource (Command)

/-- What is to be done about a request: send an answer, or execute a command. -/
inductive Plan where
  | answer (response : Response)
  | execute (command : Command)
deriving DecidableEq

def Plan.run : Plan → Store → Response × Store
  | answer response, s => (response, s)
  | execute command, s => command.run s

namespace Access.Gate

/-- The gate as a guard of routes. -/
def guard (g : Gate) (now : UInt64) : Routing.Guard where
  name := "authorization"
  judge := g.refusal? now

end Access.Gate

namespace Exchange

open Access (Gate)

/-- The answer to a request outside the resources. -/
def missing : Response := (Failure.notFound "the requested resource does not exist").response

/-- The way of a request that comes at time `now`: through the table and past the gate. -/
def passage (g : Gate) (now : UInt64) (r : Request) : Routing.Passage Resource.Operation :=
  Resource.table.pass [g.guard now] r

/-- What is to be done about a request for this path that has come this way.  Its body is read only
if it has reached a resource. -/
def planFor (location : Http.Location) (way : Routing.Passage Resource.Operation) : Plan :=
  match way.reach with
  | .route route =>
    match Command.ofRequest route.handler way.request location with
    | .ok command => .execute command
    | .error failure => .answer failure.response
  | _ => .answer ((way.settled? missing).getD missing)

/-- What is to be done about a request that comes at time `now`. -/
def plan (g : Gate) (now : UInt64) (r : Request) : Plan :=
  planFor r.target.location (passage g now r)

/-- The response to a request, and the store after it. -/
def serve (g : Gate) (now : UInt64) (r : Request) (s : Store) : Response × Store :=
  let (response, s) := (plan g now r).run s
  (Routing.sent r.method response, s)

/-! ## Time -/

/-- The time that a request has, in milliseconds. -/
def timeLimit : Nat := 30000

def timedOut : Response := { status := 408 }

/-- Whether a request runs out of time.  Only handlers wait, for the body and for their turn at the
store; every other answer is given at once. -/
def timesOut (late : Bool) (g : Gate) (now : UInt64) (r : Request) : Bool :=
  late && (passage g now r).isRouted

/-- What is to be done about a request that may be late. -/
def planWithin (late : Bool) (g : Gate) (now : UInt64) (r : Request) : Plan :=
  if timesOut late g now r then .answer timedOut else plan g now r

/-- The response to a request that may be late, and the store after it. -/
def attend (late : Bool) (g : Gate) (now : UInt64) (r : Request) (s : Store) : Response × Store :=
  let (response, s) := (planWithin late g now r).run s
  (Routing.sent r.method response, s)

theorem attend_false (g : Gate) (now : UInt64) (r : Request) (s : Store) :
    attend false g now r s = serve g now r s := by
  simp only [attend, planWithin, timesOut, Bool.false_and, Bool.false_eq_true, if_false, serve]

/-! ## Reports -/

/-- What the exchange of a request reports: the gate first, if a resource was found, and then the
command, if the request came to one. -/
def events (late : Bool) (g : Gate) (now : UInt64) (r : Request) (s : Store) : List Telemetry.Event :=
  let judged := (passage g now r).guards
  let executed := match planWithin late g now r with
    | .execute command => command.events s
    | .answer _ => []
  (if judged = [] then [] else g.events r now) ++ executed

/-! ## Requests one after the other -/

def serveAll (g : Gate) (now : UInt64) : List Request → Store → List Response × Store
  | [], s => ([], s)
  | r :: rs, s =>
    let (response, s) := serve g now r s
    let (responses, s) := serveAll g now rs s
    (response :: responses, s)

end Exchange

end DataRepository
