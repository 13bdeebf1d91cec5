import DataRepository.Http.Target

/-!
# Requests and responses

Methods, header look-up, and the parts of a response that this service writes.
-/
namespace DataRepository.Http

/-- A request method: the standard ones, and any other by name. -/
inductive Method where
  | get
  | head
  | post
  | put
  | patch
  | delete
  | options
  | trace
  | connect
  | other (name : String)
deriving DecidableEq

namespace Method

def standard : List Method :=
  [get, head, post, put, patch, delete, options, trace, connect]

/-- The name of a method, which is case-sensitive. -/
def name : Method → String
  | get => "GET"
  | head => "HEAD"
  | post => "POST"
  | put => "PUT"
  | patch => "PATCH"
  | delete => "DELETE"
  | options => "OPTIONS"
  | trace => "TRACE"
  | connect => "CONNECT"
  | other n => n

def ofName (n : String) : Method :=
  (standard.find? (·.name = n)).getD (other n)

theorem ofName_name {m : Method} (h : m ∈ standard) : ofName m.name = m := by
  simp only [standard, List.mem_cons, List.not_mem_nil, or_false] at h
  rcases h with rfl | rfl | rfl | rfl | rfl | rfl | rfl | rfl | rfl <;> decide

end Method

/-- A request: its header fields in the order in which they came, and its body. -/
structure Request where
  method : Method
  target : Target
  headers : List (String × Bytes) := []
  body : Bytes := []
deriving DecidableEq

namespace Request

/-- The value of the first header field of this name; the case of ASCII letters does not count. -/
def header? (r : Request) (name : String) : Option Bytes :=
  (r.headers.find? fun h => h.1.toList.map Char.toLower = name.toList.map Char.toLower).map (·.2)

/-- Whether a byte may stand in a header value that is read as text: visible ASCII, space or tab. -/
def isVisible (b : UInt8) : Bool := (32 ≤ b ∧ b < 127) ∨ b = 9

/-- The first authorization header as text; empty when there is none, or when it is no text. -/
def credential (r : Request) : String :=
  match r.header? "authorization" with
  | some value =>
    if value.all isVisible then String.ofList (value.map fun b => Char.ofNat b.toNat) else ""
  | none => ""

end Request

/-- A response, with those of its header fields that depend on the request. -/
structure Response where
  status : UInt16
  contentType : Option String := none
  location : Option String := none
  allow : List Method := []
  body : String := ""
deriving DecidableEq

namespace Response

def withoutBody (r : Response) : Response := { r with body := "" }

/-- The response with the methods of a resource, unless it names methods itself. -/
def allowing (r : Response) (methods : List Method) : Response :=
  { r with allow := if r.allow = [] then methods else r.allow }

theorem allowing_nil (r : Response) : r.allowing [] = r := by
  unfold allowing
  split
  · rename_i h
    rw [← h]
  · rfl

def json (status : UInt16) (body : String) : Response :=
  { status, contentType := some "application/json", body }

def plain (status : UInt16) (body : String) : Response :=
  { status, contentType := some "text/plain; charset=utf-8", body }

@[simp]
theorem status_json (status : UInt16) (body : String) : (json status body).status = status := rfl

@[simp]
theorem body_json (status : UInt16) (body : String) : (json status body).body = body := rfl

def succeeded (r : Response) : Bool := 200 ≤ r.status ∧ r.status < 300

def allowText (r : Response) : String := String.intercalate "," (r.allow.map Method.name)

end Response

end DataRepository.Http
