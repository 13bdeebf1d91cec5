import DataRepository.Settings.Source

/-!
# Paths of settings

A path leads from the root table to a setting: a name, and then names of members and positions in
lists.  Setting a value at a path makes the tables and lists on the way; a table is merged into the
one that is there, member by member, under names in lower case.
-/
namespace DataRepository.Settings

/-- A step of a path after its first name. -/
inductive Step where
  | member (name : String)
  | position (index : Int)
deriving DecidableEq

structure Path where
  root : String
  steps : List Step
deriving DecidableEq

def isNameChar (c : Char) : Bool :=
  c.isAlphanum || c = ' ' || c = '_' || c = '-'

def isPadding (c : Char) : Bool := c = ' ' || c = '\t' || c = '\r' || c = '\n'

/-- Reads a position, which is a whole number without a plus sign; a negative one is counted from the
end of the list. -/
def position? (cs : List Char) : Option Int :=
  let cs := ((cs.dropWhile isPadding).reverse.dropWhile isPadding).reverse
  if cs.head? = some '+' then none else whole? cs

/-- Reads the steps of a path, at most `count` of them. -/
def steps? (count : Nat) (cs : List Char) : Option (List Step) :=
  match count, cs with
  | _, [] => some []
  | 0, _ => none
  | count + 1, '.' :: rest =>
    let name := rest.takeWhile isNameChar
    if name = [] then none
    else (steps? count (rest.drop name.length)).map (.member (String.ofList name) :: ·)
  | count + 1, '[' :: rest =>
    let inner := rest.takeWhile (· ≠ ']')
    match rest.drop inner.length, position? inner with
    | ']' :: rest, some n => (steps? count rest).map (.position n :: ·)
    | _, _ => none
  | _, _ => none

/-- The path that a name spells; a name that spells none is the name of a member of the root. -/
def Path.ofName (name : String) : Path :=
  let root := name.toList.takeWhile isNameChar
  match steps? name.length (name.toList.drop root.length) with
  | some steps => if root = [] then ⟨name, []⟩ else ⟨String.ofList root, steps⟩
  | none => ⟨name, []⟩

/-! ## Tables -/

/-- The members of a table; of any other value none. -/
def membersOf : Value → List (String × Value)
  | .table members => members
  | _ => []

/-- The items of a list; of any other value none. -/
def itemsOf : Value → List Value
  | .list items => items
  | _ => []

mutual

def merge (current : Option Value) : Value → Value
  | .table members =>
    match members, current with
    | [], some v => v
    | members, current =>
      .table (mergeMembers (membersOf (current.getD (.table []))) members)
  | v => v

def mergeMembers (into : List (String × Value)) : List (String × Value) → List (String × Value)
  | [] => into
  | (name, v) :: rest =>
    let name := lowerName name
    mergeMembers (putMember name (merge (member? name into) v) into) rest

end

/-- The place of a position in a list of this length; it is before the list if there is none. -/
def place? (index : Int) (length : Nat) : Option Nat :=
  if 0 ≤ index then some index.toNat
  else if index.natAbs ≤ length then some (length - index.natAbs)
  else none

/-- A list with this item at the place, filled up with `nothing` as far as that. -/
def putItem (i : Nat) (v : Value) (items : List Value) : List Value :=
  (items ++ List.replicate (i + 1 - items.length) Value.nothing).set i v

/-- Sets a value below another one. -/
def setBelow (v : Value) : List Step → Option Value → Value
  | [], current => merge current v
  | .member name :: steps, current =>
    let members := membersOf (current.getD .nothing)
    let name := lowerName name
    .table (putMember name (setBelow v steps (member? name members)) members)
  | .position index :: steps, current =>
    let items := itemsOf (current.getD .nothing)
    .list <| match place? index items.length with
      | some i => putItem i (if steps.isEmpty then v else setBelow v steps items[i]?) items
      | none => items

/-- The members of the root with a value set at a path. -/
def setAt (p : Path) (v : Value) (members : List (String × Value)) : List (String × Value) :=
  let name := lowerName p.root
  putMember name (setBelow v p.steps (member? name members)) members

def apply (members : List (String × Value)) (source : List (String × Value)) :
    List (String × Value) :=
  source.foldl (fun members (name, v) => setAt (Path.ofName name) v members) members

end DataRepository.Settings
