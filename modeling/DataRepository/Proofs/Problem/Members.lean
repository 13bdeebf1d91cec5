import DataRepository.Failure
import DataRepository.Proofs.Json.Skipped
import DataRepository.Proofs.Problem

/-! # Problems in any form

A problem is read from its members in any order and among others, with null for one that has no
value. Whatever the form in which it came, it is written in one form, which is read as the same
problem and written as it is; and the problem of a failure reaches the consumer unchanged. -/
namespace DataRepository.Problem

open Json (Member Record Reader)

/-! ## Members in any order -/

/-- A member of a problem that is a text. -/
inductive TextMember where
  | kind
  | title
  | detail
  | occurrence
  | cause
deriving DecidableEq

namespace TextMember

def name : TextMember → String
  | kind => "type"
  | title => "title"
  | detail => "detail"
  | occurrence => "instance"
  | cause => "cause"

def text? (p : Problem) : TextMember → Option String
  | kind => p.kind
  | title => p.title
  | detail => p.detail
  | occurrence => p.occurrence
  | cause => p.cause

end TextMember

def nullable : Option String → Json
  | some s => .string s
  | none => .null

def statusJson (p : Problem) : Json := .number (.whole (Whole.ofWord p.status.toUInt64))

/-- Members that say what a problem is: the status and the texts, each once and in any order, and
others without floating-point numbers. A text that is missing may be null. -/
structure Describes (ms : Members) (p : Problem) : Prop where
  distinct : (ms.map (·.1)).Nodup
  plain : ∀ m ∈ ms, m.2.doubles = 0
  status : "status" ∈ ms.map (·.1) ∧ ∀ j, ("status", j) ∈ ms → j = statusJson p
  text : ∀ k : TextMember, (k.text? p ≠ none → k.name ∈ ms.map (·.1)) ∧
    ∀ j, (k.name, j) ∈ ms → j = nullable (k.text? p)

section

variable {p : Problem} {levels : Nat} {names : List String} {last : Draft} {ms : Members}

/-- A member is as it is in a problem, if it is one of a problem. -/
structure Fits (p : Problem) (name : String) (j : Json) : Prop where
  status : name = "status" → j = statusJson p
  text : ∀ k : TextMember, name = k.name → j = nullable (k.text? p)
  plain : j.doubles = 0

end

end DataRepository.Problem
