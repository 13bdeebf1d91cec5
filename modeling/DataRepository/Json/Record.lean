import DataRepository.Json.Reader

/-!
# Reading records

A record is an object with members of known names and types, in any order and among unknown ones, or
an array of the same values in the order in which the record declares them.  Reading fills a draft
member by member; when the input ends, the draft is finished.
-/
namespace DataRepository.Json

/-- A member of a record with draft type `σ`: its name, how its value enters the draft, whether it has
done so, and whether an array may end before it. -/
structure Member (σ : Type) where
  name : String
  fromText : Nat → Bytes → σ → Except Fault (σ × Bytes)
  fromJson : Json → σ → Except Mismatch σ
  isFilled : σ → Bool
  mayEndBefore : Bool

/-- The member of this name whose value `reader` reads and `store` keeps. -/
def Member.of {σ α : Type} (name : String) (reader : Reader α) (get : σ → Option α)
    (store : α → σ → σ) (mayEndBefore : Bool) : Member σ where
  name
  fromText levels bs draft := (reader.fromText levels bs).map fun (v, rest) => (store v draft, rest)
  fromJson j draft := (reader.fromJson j).map (store · draft)
  isFilled draft := (get draft).isSome
  mayEndBefore

/-- A record type: its title in messages, its members in the order of their declaration, the draft to
begin with, and the record that a draft makes. -/
structure Record (σ α : Type) where
  title : String
  members : List (Member σ)
  empty : σ
  finish : σ → Except Mismatch α

/-- The value that a draft holds for a member that must be there. -/
def required {α : Type} (name : String) (value : Option α) : Except Mismatch α :=
  match value with
  | some v => .ok v
  | none => .error (.missing name)

namespace Record

variable {σ α : Type}

/-- What an array of the wrong length was expected to be. -/
def shape (r : Record σ α) : String :=
  let n := r.members.length
  r.title ++ " with " ++ toString n ++ (if n = 1 then " element" else " elements")

def member? (r : Record σ α) (name : String) : Option (Member σ) :=
  r.members.find? (·.name == name)

/-! ## From a text -/

def objectFrom (r : Record σ α) (levels count : Nat) (first : Bool) (draft : σ) (bs : Bytes) :
    Except Fault (α × Bytes) :=
  match count with
  | 0 => failHere .tooDeep bs
  | count + 1 =>
    match nextMember? first bs with
    | .error f => .error f
    | .ok none =>
      match r.finish draft with
      | .ok v => .ok (v, skipSpace bs)
      | .error why => failOpen why bs
    | .ok (some bs) =>
      match memberName bs with
      | .error f => .error f
      | .ok (name, rest) =>
        match r.member? name with
        | some m =>
          if m.isFilled draft then failOpen (.duplicate name) rest
          else
            match colon rest with
            | .error f => .error f
            | .ok rest =>
              match m.fromText levels rest draft with
              | .error f => .error f
              | .ok (draft, rest) => r.objectFrom levels count false draft rest
        | none =>
          match colon rest >>= skip with
          | .error f => .error f
          | .ok rest => r.objectFrom levels count false draft rest

/-- Reads the items of an array into the draft, one for each member that is left; `taken` items have
been read. -/
def arrayFrom (r : Record σ α) (levels : Nat) (taken : Nat) (draft : σ) (bs : Bytes) :
    List (Member σ) → Except Fault (α × Bytes)
  | [] =>
    match r.finish draft with
    | .ok v => .ok (v, bs)
    | .error why => failOpen why bs
  | m :: rest =>
    match nextItem? (taken == 0) bs with
    | .error f => .error f
    | .ok none =>
      if m.mayEndBefore then r.arrayFrom levels taken draft bs rest
      else failOpen (.length taken r.shape) bs
    | .ok (some bs) =>
      match m.fromText levels bs draft with
      | .error f => .error f
      | .ok (draft, bs) => r.arrayFrom levels (taken + 1) draft bs rest

/-- The end of an object: the bytes after it, which a reader that has failed goes on to as well. -/
def objectEnd (bs : Bytes) : Bytes :=
  match skipSpace bs with
  | b :: rest => if is '\x7d' b then rest else b :: rest
  | [] => []

/-- The bytes at which a reader stands that has looked for the end of an array. -/
def arrayEndSeen (bs : Bytes) : Bytes :=
  match skipSpace bs with
  | b :: rest => if is ']' b then rest else if is ',' b then skipSpace rest else b :: rest
  | [] => []

/-- The end of an array whose items have all been read. -/
def arrayEnd (bs : Bytes) : Except Fault Bytes :=
  match skipSpace bs with
  | [] => failNext .endInList []
  | b :: rest =>
    if is ']' b then .ok rest
    else if is ',' b then
      match skipSpace rest with
      | c :: rest =>
        if is ']' c then failNext .trailingComma (c :: rest)
        else failNext .trailingCharacters (c :: rest)
      | [] => failNext .trailingCharacters []
    else failNext .trailingCharacters (b :: rest)

def fromText (r : Record σ α) (levels : Nat) (bs : Bytes) : Except Fault (α × Bytes) :=
  match skipSpace bs with
  | [] => wrongType r.title []
  | b :: rest =>
    if is '\x7b' b then
      if levels ≤ 1 then failNext .tooDeep (b :: rest)
      else
        match r.objectFrom (levels - 1) (rest.length + 1) true r.empty rest with
        | .ok (v, rest) => .ok (v, objectEnd rest)
        | .error f => .error { f with rest := objectEnd f.rest }.settle
    else if is '[' b then
      if levels ≤ 1 then failNext .tooDeep (b :: rest)
      else
        match r.arrayFrom (levels - 1) 0 r.empty rest r.members with
        | .ok (v, rest) => (arrayEnd rest).map (v, ·)
        | .error f => .error { f with rest := arrayEndSeen f.rest }.settle
    else wrongType r.title (b :: rest)

/-! ## From a document -/

def fromMembers (r : Record σ α) (draft : σ) : List (String × Json) → Except Mismatch σ
  | [] => .ok draft
  | (name, j) :: rest =>
    match r.member? name with
    | some m =>
      match m.fromJson j draft with
      | .ok draft => r.fromMembers draft rest
      | .error why => .error why
    | none => r.fromMembers draft rest

/-- Takes the items of an array into the draft, one for each member that is left; `taken` items have
been taken.  Gives the number of items that no member is left for. -/
def fromItems (r : Record σ α) (taken : Nat) (draft : σ) :
    List (Member σ) → List Json → Except Mismatch (σ × Nat)
  | [], left => .ok (draft, left.length)
  | m :: ms, [] =>
    if m.mayEndBefore then r.fromItems taken draft ms []
    else .error (.length taken r.shape)
  | m :: ms, j :: rest =>
    match m.fromJson j draft with
    | .ok draft => r.fromItems (taken + 1) draft ms rest
    | .error why => .error why

def fromJson (r : Record σ α) : Json → Except Mismatch α
  | .object members => r.fromMembers r.empty members >>= r.finish
  | .array items => do
    let (draft, left) ← r.fromItems 0 r.empty r.members items
    let v ← r.finish draft
    if left = 0 then return v
    else throw (.length items.length "fewer elements in array")
  | j => .error (.type j.found r.title)

def reader (r : Record σ α) : Reader α where
  fromText := r.fromText
  fromJson := r.fromJson

end Record

end DataRepository.Json
