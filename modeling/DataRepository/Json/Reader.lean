import DataRepository.Json.Parser

/-!
# Readers of typed values

A `Reader` takes a value of one type off the front of a text, or out of a document that has been read
already.  The two ways refuse the same documents in the same words; from a text, the refusal has a
place.
-/
namespace DataRepository.Json

/-- Reads values of one type. `fromText` gets the number of levels that may still open, plus one. -/
structure Reader (α : Type) where
  fromText : Nat → Bytes → Except Fault (α × Bytes)
  fromJson : Json → Except Mismatch α

/-- The fault of a document that is not what was expected: a scalar is read first, an array or an
object is not entered. -/
def wrongType {α : Type} (expected : String) (bs : Bytes) : Except Fault α :=
  match bs with
  | [] => failNext .endInValue []
  | b :: rest =>
    if is '[' b then failHere (.mismatch (.type .sequence expected)) bs
    else if is '\x7b' b then failHere (.mismatch (.type .map expected)) bs
    else
      match scalar b rest with
      | .ok (j, rest) => failHere (.mismatch (.type j.found expected)) rest
      | .error f => .error f

namespace Reader

def string (expected : String) : Reader String where
  fromText _ bs :=
    match skipSpace bs with
    | b :: rest => if is '"' b then stringText rest else wrongType expected (b :: rest)
    | [] => wrongType expected []
  fromJson
    | .string s => .ok s
    | j => .error (.type j.found expected)

def text : Reader String := string "a string"

def path : Reader String := string "path string"

def flag : Reader Bool where
  fromText _ bs :=
    match skipSpace bs with
    | b :: rest =>
      if is 't' b then (literal ['r', 'u', 'e'] rest).map (true, ·)
      else if is 'f' b then (literal ['a', 'l', 's', 'e'] rest).map (false, ·)
      else wrongType "a boolean" (b :: rest)
    | [] => wrongType "a boolean" []
  fromJson
    | .bool b => .ok b
    | j => .error (.type j.found "a boolean")

def natural (bound : Nat) (expected : String) : Number → Except Mismatch Nat
  | .whole w =>
    if 0 ≤ w.value ∧ w.value < bound then .ok w.value.toNat
    else .error (.value (.number (.whole w)) expected)
  | n => .error (.type (.number n) expected)

def word (bound : Nat) (expected : String) : Reader Nat where
  fromText _ bs :=
    let checked (scanned : Scan Number) : Except Fault (Nat × Bytes) :=
      match scanned with
      | .error f => .error f
      | .ok (n, rest) =>
        match natural bound expected n with
        | .ok v => .ok (v, rest)
        | .error why => failHere (.mismatch why) rest
    match skipSpace bs with
    | b :: rest =>
      if is '-' b then checked (numberText false rest)
      else if isDigit b then checked (numberText true (b :: rest))
      else wrongType expected (b :: rest)
    | [] => wrongType expected []
  fromJson
    | .number n => natural bound expected n
    | j => .error (.type j.found expected)

def word16 : Reader UInt16 where
  fromText levels bs :=
    ((word UInt16.size "u16").fromText levels bs).map fun (n, rest) => (n.toUInt16, rest)
  fromJson j := ((word UInt16.size "u16").fromJson j).map Nat.toUInt16

def word64 : Reader UInt64 where
  fromText levels bs :=
    ((word UInt64.size "u64").fromText levels bs).map fun (n, rest) => (n.toUInt64, rest)
  fromJson j := ((word UInt64.size "u64").fromJson j).map Nat.toUInt64

def document : Reader Json where
  fromText := value
  fromJson j := .ok j

/-- A value, or `null` for none. -/
def optional {α : Type} (r : Reader α) : Reader (Option α) where
  fromText levels bs :=
    match skipSpace bs with
    | b :: rest =>
      if is 'n' b then (literal ['u', 'l', 'l'] rest).map (none, ·)
      else (r.fromText levels (b :: rest)).map fun (v, rest) => (some v, rest)
    | [] => (r.fromText levels []).map fun (v, rest) => (some v, rest)
  fromJson
    | .null => .ok none
    | j => (r.fromJson j).map some

def read {α : Type} (r : Reader α) (text : Bytes) : Except Fault α :=
  r.fromText nestingLimit text >>= atEnd

end Reader

end DataRepository.Json
