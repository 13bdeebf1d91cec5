import DataRepository.Routing.Table

/-!
# Guarded routes

A group is a table of routes behind guards.  A request whose path is in the table is judged by the
guards in their order; the first one that answers it ends its way.  A request that all of them let
through reaches the route of its method, or is told which methods there are.
-/
namespace DataRepository.Routing

open Http (Method Target Request Response)

variable {η : Type}

/-- A check in front of the routes: it answers a request, or lets it through. -/
structure Guard where
  name : String
  judge : Request → Option Response

/-- How far a request gets. -/
inductive Reach (η : Type) where
  | nowhere
  | stopped (response : Response)
  | noRoute (allow : List Method)
  | route (r : Route η)

/-- The way of a request: the guards that judged it, the request as they and the route see it, and
how far it gets. -/
structure Passage (η : Type) where
  guards : List String
  request : Request
  reach : Reach η

/-- The guards that judge a request, and the answer of the last one. -/
def judgement : List Guard → Request → List String × Option Response
  | [], _ => ([], none)
  | g :: gs, r =>
    match g.judge r with
    | some answer => ([g.name], some answer)
    | none =>
      let (names, answer) := judgement gs r
      (g.name :: names, answer)

/-- The way of a request through guards and table. -/
def Table.pass (t : Table η) (guards : List Guard) (r : Request) : Passage η :=
  match t.row? r.target.path with
  | none => ⟨[], r, .nowhere⟩
  | some row =>
    let seen : Request := { r with target := t.localTarget r.target }
    let (names, answer) := judgement guards seen
    let reach : Reach η :=
      match row.route? r.method, answer with
      | some _, some a => .stopped a
      | none, some a => .stopped (a.allowing row.allow)
      | some route, none => .route route
      | none, none => .noRoute row.allow
    ⟨names, seen, reach⟩

namespace Passage

/-- The response to a request that no route handles; `missing` answers paths outside the table. -/
def settled? (p : Passage η) (missing : Response) : Option Response :=
  match p.reach with
  | .nowhere => some missing
  | .stopped a => some a
  | .noRoute allow => some { status := 405, allow }
  | .route _ => none

end Passage

def Passage.isRouted (p : Passage η) : Bool :=
  match p.reach with
  | .route _ => true
  | _ => false

/-- The response as it is sent: a HEAD request gets no body. -/
def sent (method : Method) (response : Response) : Response :=
  if method = .head then response.withoutBody else response

/-- A request outside the table meets neither guard nor route. -/
theorem Table.pass_of_row_none {t : Table η} {guards : List Guard} {r : Request}
    (h : t.row? r.target.path = none) :
    t.pass guards r = ⟨[], r, .nowhere⟩ := by
  simp [Table.pass, h]

end DataRepository.Routing
