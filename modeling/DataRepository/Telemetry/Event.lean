import DataRepository.Json.Basic

/-!
# Log events

What the program records while it runs: a level, the part of the program that reports, a message with
its fields, and the component that the report belongs to, if any.
-/
namespace DataRepository.Telemetry

/-- The weight of an event, the gravest first. -/
inductive Level where
  | error
  | warn
  | info
  | debug
  | trace
deriving DecidableEq

namespace Level

/-- The rank of a level; the gravest has the lowest. -/
def rank : Level → Nat
  | error => 1
  | warn => 2
  | info => 3
  | debug => 4
  | trace => 5

def name : Level → String
  | error => "ERROR"
  | warn => "WARN"
  | info => "INFO"
  | debug => "DEBUG"
  | trace => "TRACE"

end Level

/-- A component of an instance, to which events can belong. -/
structure Span where
  component : String
  instanceId : String
deriving DecidableEq

namespace Span

def name : String := "udr"

def fields (s : Span) : Members :=
  [("component", .string s.component), ("nf_instance_id", .string s.instanceId)]

def fieldNames : List String := ["component", "nf_instance_id"]

def members (s : Span) : Members := s.fields ++ [("name", .string name)]

end Span

structure Event where
  level : Level
  target : String
  message : String
  fields : Members := []
  span : Option Span := none
deriving DecidableEq

def Event.fieldNames (e : Event) : List String := "message" :: e.fields.map (·.1)

def Event.toJson (e : Event) (time : String) : Json :=
  let spans := match e.span with
    | some s => [("span", Json.object s.members), ("spans", .array [.object s.members])]
    | none => []
  .object ([("timestamp", .string time), ("level", .string e.level.name),
    ("fields", .object (("message", .string e.message) :: e.fields)),
    ("target", .string e.target)] ++ spans)

end DataRepository.Telemetry
