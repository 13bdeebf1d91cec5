import DataRepository.Json.Printer
import DataRepository.Json.Record

/-!
# Problem details

The body of an unsuccessful response: a status and optional members that explain it, written in the
order of their declaration and left out when there is nothing to say.
-/
namespace DataRepository

/-- What went wrong with a request. -/
structure Problem where
  kind : Option String := none
  title : Option String := none
  status : UInt16 := 0
  detail : Option String := none
  occurrence : Option String := none
  cause : Option String := none
deriving DecidableEq

namespace Problem

def optionalMember (name : String) : Option String → Members
  | some v => [(name, .string v)]
  | none => []

def toJson (p : Problem) : Json :=
  .object (optionalMember "type" p.kind ++ optionalMember "title" p.title ++
    [("status", .number (.whole (Whole.ofWord p.status.toUInt64)))] ++
    optionalMember "detail" p.detail ++ optionalMember "instance" p.occurrence ++
    optionalMember "cause" p.cause)

def text (p : Problem) : String := p.toJson.text

/-- A problem as it is read: a member that has been read may hold no value. -/
structure Draft where
  kind : Option (Option String) := none
  title : Option (Option String) := none
  status : Option UInt16 := none
  detail : Option (Option String) := none
  occurrence : Option (Option String) := none
  cause : Option (Option String) := none

def record : Json.Record Draft Problem where
  title := "struct ProblemDetails"
  members := [
    .of "type" (.optional .text) (·.kind) (fun v d => { d with kind := some v }) false,
    .of "title" (.optional .text) (·.title) (fun v d => { d with title := some v }) false,
    .of "status" .word16 (·.status) (fun v d => { d with status := some v }) false,
    .of "detail" (.optional .text) (·.detail) (fun v d => { d with detail := some v }) false,
    .of "instance" (.optional .text) (·.occurrence) (fun v d => { d with occurrence := some v })
      false,
    .of "cause" (.optional .text) (·.cause) (fun v d => { d with cause := some v }) false]
  empty := {}
  finish d := do
    let status ← Json.required "status" d.status
    return {
      kind := d.kind.join
      title := d.title.join
      status
      detail := d.detail.join
      occurrence := d.occurrence.join
      cause := d.cause.join }

def parse (text : Bytes) : Except Json.Fault Problem := record.reader.read text

end Problem

end DataRepository
