import DataRepository.Json.Basic
import DataRepository.Text.Quoted

/-!
# Documents of the wrong shape

How a well-formed document can fail to be the record that a reader asked for, and the words for it.
-/
namespace DataRepository.Json

/-- What stands where something else was expected. -/
inductive Found where
  | null
  | bool (value : Bool)
  | number (value : Number)
  | string (value : String)
  | sequence
  | map
deriving DecidableEq

/-- What a document is when it is not what was expected. -/
def found : Json → Found
  | .null => .null
  | .bool b => .bool b
  | .number n => .number n
  | .string s => .string s
  | .array _ => .sequence
  | .object _ => .map

/-- The words for what stands there; scalars are shown with their value. -/
def Found.text : Found → String
  | .null => "null"
  | .bool b => "boolean `" ++ (if b then "true" else "false") ++ "`"
  | .number (.whole w) => "integer `" ++ String.ofList w.chars ++ "`"
  | .number (.double d) => "floating point `" ++ String.ofList d.chars ++ "`"
  | .string s => "string " ++ Text.quoted s
  | .sequence => "sequence"
  | .map => "map"

/-- How a document fails to be the record that was asked for. -/
inductive Mismatch where
  | type (found : Found) (expected : String)
  | value (found : Found) (expected : String)
  | missing (name : String)
  | duplicate (name : String)
  | length (actual : Nat) (expected : String)
  | variant (name : String) (expected : String)
deriving DecidableEq

def Mismatch.text : Mismatch → String
  | .type f e => "invalid type: " ++ f.text ++ ", expected " ++ e
  | .value f e => "invalid value: " ++ f.text ++ ", expected " ++ e
  | .missing n => "missing field `" ++ n ++ "`"
  | .duplicate n => "duplicate field `" ++ n ++ "`"
  | .length n e => "invalid length " ++ toString n ++ ", expected " ++ e
  | .variant n e => "unknown variant `" ++ n ++ "`, expected " ++ e

end DataRepository.Json
