import DataRepository.Failure
import DataRepository.Store
import DataRepository.Telemetry.Event

/-!
# Commands on resources

A resource is the document under its path.  A request to a resource either fails on its own, or it is
a command that performs one operation of the store and answers with what came of it.
-/
namespace DataRepository.Resource

open Http (Location Request Response)

inductive Operation where
  | query
  | replace
  | modify
  | remove
deriving DecidableEq

def Operation.method : Operation → Http.Method
  | query => .get
  | replace => .put
  | modify => .patch
  | remove => .delete

/-- A command; its key is the path of the resource under the service. -/
inductive Command where
  | query (key : String)
  | replace (key : String) (location : Location) (doc : Json)
  | modify (key : String) (patch : Json)
  | remove (key : String)
deriving DecidableEq

/-! ## From a request -/

/-- The size of the largest body that is read, in bytes. -/
def bodyLimit : Nat := 64 * 1024

/-- The document in the body of a request. -/
def readBody (body : Bytes) : Except Failure Json :=
  if bodyLimit < body.length then
    .error (.badRequest "failed to read request body: length limit exceeded")
  else if body = [] then .error (.badRequest "request body is empty")
  else
    match Json.parse body with
    | .ok doc => .ok doc
    | .error fault => .error (.badRequest ("request body is not valid JSON: " ++ fault.text body))

/-- The command that a request asks for; `location` is the path as the consumer wrote it. -/
def Command.ofRequest (op : Operation) (r : Request) (location : Location) :
    Except Failure Command :=
  let key := r.target.path
  match op with
  | .query => .ok (.query key)
  | .replace => (readBody r.body).map (.replace key location)
  | .modify => (readBody r.body).map (.modify key)
  | .remove => .ok (.remove key)

/-! ## Execution -/

def noData (key : String) : Response := (Failure.notFound ("no data stored at " ++ key)).response

def created (location : Location) (doc : Json) : Response :=
  { Response.json 201 doc.text with location := some location.path }

/-- The answer to a request that changed a document, or removed it. -/
def noContent : Response := { status := 204 }

@[simp]
theorem status_noData (key : String) : (noData key).status = 404 := rfl

@[simp]
theorem status_noContent : noContent.status = 204 := rfl

def putAnswer (location : Location) (doc : Json) : PutOutcome → Response
  | .created => created location doc
  | .replaced => noContent

def patchAnswer (key : String) : Except Patch.Refusal Bool → Response
  | .ok true => noContent
  | .ok false => noData key
  | .error why => (Failure.badRequest why.text).response

namespace Command

def key : Command → String
  | query key | replace key _ _ | modify key _ | remove key => key

def run : Command → Store → Response × Store
  | query key, s =>
    (match s.get? key with
      | some doc => .json 200 doc.text
      | none => noData key, s)
  | replace key location doc, s =>
    let outcome := s.put key doc
    (putAnswer location doc outcome.1, outcome.2)
  | modify key patch, s =>
    let outcome := s.patch key patch
    (patchAnswer key outcome.1, outcome.2)
  | remove key, s => (noContent, (s.remove key).2)

def events (c : Command) (s : Store) : List Telemetry.Event :=
  let event (level : Telemetry.Level) (message : String) (more : Members) : Telemetry.Event :=
    { level, target := "udr::processor::handlers", message
      fields := ("resource", .string c.key) :: more }
  match c with
  | query key => if (s.get? key).isNone then [event .debug "document not found" []] else []
  | replace key _ doc =>
    match (s.put key doc).1 with
    | .created => [event .debug "document created" []]
    | .replaced => [event .debug "document replaced" []]
  | modify key patch =>
    match (s.patch key patch).1 with
    | .ok _ => []
    | .error why => [event .warn "patch rejected" [("error", .string why.text)]]
  | remove key => if (s.remove key).1 then [event .debug "document removed" []] else []

/-- A command changes no document but that of its resource. -/
theorem get?_run_of_ne (c : Command) (s : Store) {other : String} (h : other ≠ c.key) :
    (c.run s).2.get? other = s.get? other := by
  cases c with
  | query _ => rfl
  | replace _ _ doc => exact s.get?_put_of_ne doc h
  | modify _ patch => exact s.get?_patch_of_ne patch h
  | remove _ => exact s.get?_remove_of_ne h

end Command

end DataRepository.Resource
