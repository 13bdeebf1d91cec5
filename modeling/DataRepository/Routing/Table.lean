import DataRepository.Http.Message
import DataRepository.Routing.Search

/-!
# Route tables

A table is built from a mount point and a list of routes.  Of several routes with the same method and
pattern the first one counts; a route with a method that is not of the standard is left out.  Routes
whose patterns read the same under the mount point are one row.  A request finds the row whose
pattern stands for its path, and in that row the route of its method.
-/
namespace DataRepository.Routing

open Http (Method Target)

variable {η : Type}

/-- A route: the handler of the requests with a method and a path. -/
structure Route (η : Type) where
  name : String
  method : Method
  pattern : String
  handler : η
deriving DecidableEq

structure Row (η : Type) where
  routes : List (Route η)
deriving DecidableEq

/-- Routes under a mount point. -/
structure Table (η : Type) where
  mount : String
  rows : Ways (Row η)

/-! ## Rows -/

namespace Row

def given? (row : Row η) (m : Method) : Option (Route η) :=
  row.routes.find? (·.method = m)

/-- The route that serves requests with this method.  What serves GET serves HEAD as well, unless
there is a route for it; a CONNECT route is in the place of the OPTIONS route, and nothing serves
CONNECT. -/
def route? (row : Row η) (m : Method) : Option (Route η) :=
  match m with
  | .head => (row.given? .head).or (row.given? .get)
  | .options => (row.given? .options).or (row.given? .connect)
  | .connect => none
  | m => row.given? m

/-- The methods that a route for this method allows. -/
def allowedBy : Method → List Method
  | .get => [.get, .head]
  | m => [m]

/-- The methods that the row allows, each of them once. -/
def allow (row : Row η) : List Method :=
  row.routes.foldl
    (fun listed r => listed ++ (allowedBy r.method).filter (! listed.contains ·)) []

/-- The place that a route takes in its row. -/
def place : Method → Method
  | .connect => .options
  | m => m

/-- Whether no two routes take the same place. -/
def isSound (row : Row η) : Bool := (row.routes.map fun r => place r.method).Nodup

end Row

/-! ## Building a table -/

/-- Leaves out routes with a method that is not of the standard, and every route after the first with
its method and pattern. -/
def admitted (routes : List (Route η)) : List (Route η) :=
  (routes.foldl
    (fun kept r =>
      if r.method ∈ Method.standard ∧
          ¬ kept.any (fun k => k.method = r.method ∧ k.pattern = r.pattern) then r :: kept
      else kept)
    []).reverse

/-- Routes by a text that belongs to each of them, in the order in which the texts first appear. -/
def gathered (text : Route η → String) (routes : List (Route η)) : List (String × Row η) :=
  (routes.map text).eraseDups.map fun t => (t, ⟨routes.filter (text · = t)⟩)

/-- Reads patterns, of which no two may clash. -/
def readPatterns : List String → Except Refusal (List Pattern)
  | [] => .ok []
  | t :: ts => do
    let p ← Pattern.ofText t
    let ps ← readPatterns ts
    if ps.any (p.clashes ·) then throw .ambiguous
    return p :: ps

/-- A target as the routes under a mount point see it. -/
def targetUnder (mount : String) (target : Target) : Target where
  origin := target.origin
  path := unmounted mount target.path
  query := target.query
  plainPath := all_unmounted (by decide) mount target.plainPath
  plainQuery := target.plainQuery

namespace Table

def empty (mount : String) : Table η := ⟨mount, []⟩

def build (mount : String) (routes : List (Route η)) : Except Refusal (Table η) := do
  let mount := if mount = "" then "/" else mount
  let groups := gathered (·.pattern) (admitted routes)
  if groups.isEmpty then return empty mount
  discard (readPatterns (groups.map (·.1)))
  if mount.toList.contains '*' then throw .mountedOnRest
  let rows := gathered (fun r => Pattern.mounted mount r.pattern) (groups.flatMap (·.2.routes))
  if rows.any (! ·.2.isSound) then throw .shared
  let patterns ← readPatterns (rows.map (·.1))
  return ⟨mount, patterns.zip (rows.map (·.2))⟩

def row? (t : Table η) (path : String) : Option (Row η) := t.rows.find? path.toList

def localTarget (t : Table η) (target : Target) : Target := targetUnder t.mount target

end Table

end DataRepository.Routing
