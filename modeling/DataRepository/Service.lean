import DataRepository.Json.Record

/-!
# Service names

The services that a data repository can expose.  The name of a service is also the scope that an
access token must carry to invoke it.
-/
namespace DataRepository

inductive Service where
  | dataRepository
  | groupIdMap
deriving DecidableEq

namespace Service

def name : Service → String
  | .dataRepository => "nudr-dr"
  | .groupIdMap => "nudr-group-id-map"

def ofName? (n : String) : Option Service :=
  if n = dataRepository.name then some .dataRepository
  else if n = groupIdMap.name then some .groupIdMap
  else none

theorem ofName?_name (s : Service) : ofName? s.name = some s := by
  cases s <;> decide

open Json

/-- The service of this name, as far as a text has been read. -/
def named (n : String) (rest : Bytes) : Except Fault Service :=
  match ofName? n with
  | some s => .ok s
  | none => failHere (.mismatch (.variant n "`nudr-dr` or `nudr-group-id-map`")) rest

/-- Reads the `null` that may follow a service name in an object. -/
def nothing (bs : Bytes) : Except Fault Bytes :=
  match skipSpace bs with
  | b :: rest => if is 'n' b then literal ['u', 'l', 'l'] rest else wrongType "unit" (b :: rest)
  | [] => wrongType "unit" []

/-- Reads a service: its name, or an object with its name as the only member, which is `null`. -/
def fromText (bs : Bytes) : Except Fault (Service × Bytes) := do
  match skipSpace bs with
  | [] => failNext .endInValue []
  | b :: rest =>
    if is '"' b then
      let (n, rest) ← stringText rest
      return (← named n rest, rest)
    else if is '\x7b' b then
      match skipSpace rest with
      | [] => failNext .endInValue []
      | c :: rest =>
        if is '"' c then
          let (n, rest) ← stringText rest
          let s ← named n rest
          let rest ← colon rest >>= nothing
          match skipSpace rest with
          | [] => failHere .endInObject []
          | d :: rest => if is '\x7d' d then return (s, rest) else failHere .expectedValue (d :: rest)
        else wrongType "variant identifier" (c :: rest)
    else failNext .expectedValue (b :: rest)

def parse (text : Bytes) : Except Fault Service :=
  fromText text >>= atEnd

end Service

end DataRepository
