import DataRepository.Json.NumberText
import DataRepository.Json.StringText

/-!
# Reading documents

`Json.value` reads one document off the front of a byte sequence; `Json.parse` reads a whole text.
Arrays and objects may nest to a depth of 127.  Of a repeated member name the last value stays.

Every step of the readers below takes a byte or enters a part that does, so a count of twice the
bytes, plus one, is never used up.
-/
namespace DataRepository.Json

/-- How deep arrays and objects may nest, plus one. -/
def nestingLimit : Nat := 128

/-- Reads the opening quote and the string after it, with white space before, as a member's name. -/
def memberName (bs : Bytes) : Scan String :=
  match bs with
  | [] => failNext .endInValue []
  | b :: rest => if is '"' b then stringText rest else failNext .keyNotString bs

/-- Reads the colon between a name and its value. -/
def colon (bs : Bytes) : Except Fault Bytes :=
  match skipSpace bs with
  | [] => failNext .endInObject []
  | b :: rest => if is ':' b then .ok rest else failNext .expectedColon (b :: rest)

/-- What a list reader finds before an item: the end of the list, which it takes, or an item. -/
def nextItem? (first : Bool) (bs : Bytes) : Except Fault (Option Bytes) :=
  match skipSpace bs with
  | [] => failNext .endInList []
  | b :: rest =>
    if is ']' b then .ok none
    else if first then .ok (some (b :: rest))
    else if is ',' b then
      match skipSpace rest with
      | [] => failNext .endInValue []
      | c :: rest => if is ']' c then failNext .trailingComma (c :: rest) else .ok (some (c :: rest))
    else failNext .expectedListEnd (b :: rest)

/-- What an object reader finds before a member: the end of the object or a name. -/
def nextMember? (first : Bool) (bs : Bytes) : Except Fault (Option Bytes) :=
  match skipSpace bs with
  | [] => failNext .endInObject []
  | b :: rest =>
    if is '\x7d' b then .ok none
    else if first then
      if is '"' b then .ok (some (b :: rest)) else failNext .keyNotString (b :: rest)
    else if is ',' b then
      match skipSpace rest with
      | [] => failNext .endInValue []
      | c :: rest =>
        if is '"' c then .ok (some (c :: rest))
        else if is '\x7d' c then failNext .trailingComma (c :: rest)
        else failNext .keyNotString (c :: rest)
    else failNext .expectedObjectEnd (b :: rest)

/-- The bytes after the closing bracket that a reader has seen behind white space. -/
def afterClosing (bs : Bytes) : Bytes := (skipSpace bs).tail

/-- Reads a document that is no array and no object, at its first byte. -/
def scalar (b : UInt8) (rest : Bytes) : Scan Json :=
  if is 'n' b then (literal ['u', 'l', 'l'] rest).map (.null, ·)
  else if is 't' b then (literal ['r', 'u', 'e'] rest).map (.bool true, ·)
  else if is 'f' b then (literal ['a', 'l', 's', 'e'] rest).map (.bool false, ·)
  else if is '-' b then (numberText false rest).map fun (n, rest) => (.number n, rest)
  else if isDigit b then (numberText true (b :: rest)).map fun (n, rest) => (.number n, rest)
  else if is '"' b then (stringText rest).map fun (s, rest) => (.string s, rest)
  else failNext .expectedValue (b :: rest)

mutual
/-- Reads one document.  `levels` is one more than the number of levels that may still open. -/
def valueWithin (count levels : Nat) (bs : Bytes) : Scan Json :=
  match count with
  | 0 => failHere .tooDeep bs
  | count + 1 =>
    match skipSpace bs with
    | [] => failNext .endInValue []
    | b :: rest =>
      if is '[' b then
        if levels ≤ 1 then failNext .tooDeep (b :: rest)
        else itemsWithin count (levels - 1) true [] rest
      else if is '\x7b' b then
        if levels ≤ 1 then failNext .tooDeep (b :: rest)
        else membersWithin count (levels - 1) true [] rest
      else scalar b rest
/-- Reads the items of an array after those in `done`, which are reversed. -/
def itemsWithin (count levels : Nat) (first : Bool) (done : List Json) (bs : Bytes) : Scan Json :=
  match count with
  | 0 => failHere .tooDeep bs
  | count + 1 =>
    match nextItem? first bs with
    | .error f => .error f
    | .ok none => .ok (.array done.reverse, afterClosing bs)
    | .ok (some bs) =>
      match valueWithin count levels bs with
      | .error f => .error f
      | .ok (j, rest) => itemsWithin count levels false (j :: done) rest
/-- Reads the members of an object after those in `done`, which are reversed. -/
def membersWithin (count levels : Nat) (first : Bool) (done : List (String × Json)) (bs : Bytes) :
    Scan Json :=
  match count with
  | 0 => failHere .tooDeep bs
  | count + 1 =>
    match nextMember? first bs with
    | .error f => .error f
    | .ok none => .ok (.object (Members.ofReversed done), afterClosing bs)
    | .ok (some bs) =>
      match memberName bs with
      | .error f => .error f
      | .ok (name, rest) =>
        match colon rest with
        | .error f => .error f
        | .ok rest =>
          match valueWithin count levels rest with
          | .error f => .error f
          | .ok (j, rest) => membersWithin count levels false ((name, j) :: done) rest
end

/-- A count that suffices for these bytes. -/
def enough (bs : Bytes) : Nat := 2 * bs.length + 1

def value (levels : Nat) (bs : Bytes) : Scan Json := valueWithin (enough bs) levels bs

/-- Nothing but white space may follow a document. -/
def atEnd {α : Type} (scanned : α × Bytes) : Except Fault α :=
  match skipSpace scanned.2 with
  | [] => .ok scanned.1
  | rest => failNext .trailingCharacters rest

def parse (text : Bytes) : Except Fault Json :=
  value nestingLimit text >>= atEnd

/-! ## Passing over -/

/-- An array or object that is still open. -/
inductive Bracket where
  | list
  | object
deriving DecidableEq

def Bracket.ended : Bracket → Reason
  | .list => .endInList
  | .object => .endInObject

/-- The fault of another byte where a comma or the end is due. -/
def Bracket.unfinished : Bracket → Reason
  | .list => .expectedListEnd
  | .object => .expectedObjectEnd

/-- The byte that closes the bracket. -/
def Bracket.closing : Bracket → Char
  | .list => ']'
  | .object => '\x7d'

def skipName (bs : Bytes) : Except Fault Bytes :=
  match skipSpace bs with
  | [] => failNext .endInObject []
  | b :: rest =>
    if is '"' b then skipString (rest.length + 1) rest >>= colon
    else failNext .keyNotString (b :: rest)

mutual
/-- Passes over one document of any depth and what follows it up to the end of the outermost bracket
that is open. -/
def skipWithin (count : Nat) (opened : List Bracket) (bs : Bytes) : Except Fault Bytes :=
  match count with
  | 0 => failHere .tooDeep bs
  | count + 1 =>
    match skipSpace bs with
    | [] => failNext .endInValue []
    | b :: rest =>
      let scalar (left : Except Fault Bytes) : Except Fault Bytes :=
        match left with
        | .ok rest => skipAfter count opened true rest
        | .error f => .error f
      if is 'n' b then scalar (literal ['u', 'l', 'l'] rest)
      else if is 't' b then scalar (literal ['r', 'u', 'e'] rest)
      else if is 'f' b then scalar (literal ['a', 'l', 's', 'e'] rest)
      else if is '-' b then scalar (skipNumber rest)
      else if isDigit b then scalar (skipNumber (b :: rest))
      else if is '"' b then scalar (skipString (rest.length + 1) rest)
      else if is '[' b then skipAfter count (.list :: opened) false rest
      else if is '\x7b' b then skipAfter count (.object :: opened) false rest
      else failNext .expectedValue (b :: rest)
/-- Passes over what follows a value, or an opening bracket if no comma may stand there. -/
def skipAfter (count : Nat) (opened : List Bracket) (comma : Bool) (bs : Bytes) :
    Except Fault Bytes :=
  match count, opened with
  | 0, _ => failHere .tooDeep bs
  | _ + 1, [] => .ok bs
  | count + 1, bracket :: outer =>
    let next (bs : Bytes) : Except Fault Bytes :=
      match bracket with
      | .list => skipWithin count (bracket :: outer) bs
      | .object =>
        match skipName bs with
        | .ok rest => skipWithin count (bracket :: outer) rest
        | .error f => .error f
    match skipSpace bs with
    | [] => failNext bracket.ended []
    | b :: rest =>
      if comma && is ',' b then next rest
      else if is bracket.closing b then skipAfter count outer true rest
      else if comma then failNext bracket.unfinished (b :: rest)
      else next (b :: rest)
end

def skip (bs : Bytes) : Except Fault Bytes := skipWithin (enough bs + 1) [] bs

end DataRepository.Json
