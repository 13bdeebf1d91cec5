import DataRepository.Settings.Value
import DataRepository.Yaml.Node

/-!
# Sources of settings

The table that a configuration file holds, and the variables of an environment that name settings.
-/
namespace DataRepository.Settings

/-! ## Files -/

/-- The words for infinities and undefined values that have no text which can be read again. -/
def unreadableWords : List String :=
  [".inf", ".Inf", ".INF", "+.inf", "+.Inf", "+.INF", "-.inf", "-.Inf", "-.INF", ".nan", ".NAN"]

/-- The digits of a numeral in a base up to sixteen. -/
def inBase? (base : Nat) (cs : List Char) : Option Nat :=
  if cs.isEmpty then none
  else
    cs.foldl
      (fun n c => do
        let n ← n
        let d ← Yaml.hexValue? c
        if d < base then some (n * base + d) else none)
      (some 0)

def wholeInBase? (base : Nat) (cs : List Char) : Option Int :=
  match cs with
  | '-' :: ds => ((inBase? base ds).filter (· ≤ 0x8000000000000000)).map fun n => -(n : Int)
  | '+' :: ds => ((inBase? base ds).filter (· < 0x8000000000000000)).map fun n => (n : Int)
  | ds => ((inBase? base ds).filter (· < 0x8000000000000000)).map fun n => (n : Int)

/-- The whole number that a plain scalar spells: hexadecimal, octal or decimal. -/
def plainWhole? (s : String) : Option Int :=
  match s.toList with
  | '0' :: 'x' :: ds => wholeInBase? 16 ds
  | '0' :: 'o' :: ds => wholeInBase? 8 ds
  | '+' :: ds => whole? ds
  | ds => whole? ds

/-- The value of a plain scalar; none if it cannot be kept. -/
def ofPlain? (s : String) : Option Value :=
  match plainWhole? s with
  | some n => some (.whole n)
  | none =>
    if s = "" ∨ s = "~" ∨ s = "null" then some .nothing
    else if s = "true" then some (.flag true)
    else if s = "false" then some (.flag false)
    else if unreadableWords.contains s then none
    else
      match Double.ofText? s.toList with
      | some d => some (.double d)
      | none => some (.text s)

/-- What the handle of a tag for a type of the file format stands for. -/
def typeHandle : String := "tag:yaml.org,2002:"

/-- The value of a plain scalar with a tag; a text that is none of the type is left out. -/
def ofTagged? (tag : Yaml.Tag) (s : String) : Option Value :=
  if tag.handle ≠ typeHandle then some (.text s)
  else
    match tag.suffix with
    | "bool" => some (if s = "true" then .flag true else if s = "false" then .flag false else .nothing)
    | "int" => some (((whole? s.toList).map .whole).getD .nothing)
    | "float" =>
      if unreadableWords.contains s then none
      else some (((Double.ofText? s.toList).map .double).getD .nothing)
    | "null" => some .nothing
    | _ => some (.text s)

def ofScalar? (s : String) (isPlain : Bool) (tag : Option Yaml.Tag) : Option Value :=
  if ! isPlain then some (.text s)
  else
    match tag with
    | some t => ofTagged? t s
    | none => ofPlain? s

inductive Key where
  | text (s : String)
  | whole (n : Int)
  | other (s : String)
deriving DecidableEq

def Key.ofNode? : Yaml.Node → Option Key
  | .scalar s isPlain tag =>
    match ofScalar? s isPlain tag with
    | some (.text s) => some (.text s)
    | some (.whole n) => some (.whole n)
    | some .nothing => some (.other "~")
    | _ => some (.other s)
  | _ => none

/-- The name that a key gives to a setting. -/
def Key.name? : Key → Option String
  | text s => some s
  | whole n => some (Value.wholeText n)
  | other _ => none

/-- A truth value names nothing, unless it is quoted. -/
example : (Key.ofNode? (.scalar "true" true none)).bind Key.name? = none ∧
    (Key.ofNode? (.scalar "true" false none)).bind Key.name? = some "true" := by decide +kernel

mutual

/-- Whether no mapping in a node has a scalar twice among its keys. -/
def hasDistinctKeys : Yaml.Node → Bool
  | .scalar .. => true
  | .sequence items => allHaveDistinctKeys items
  | .mapping entries =>
    (entries.filterMap (Key.ofNode? ·.1)).Nodup && haveDistinctKeys entries

def allHaveDistinctKeys : List Yaml.Node → Bool
  | [] => true
  | n :: ns => hasDistinctKeys n && allHaveDistinctKeys ns

/-- Whether the keys and values of a mapping have distinct keys in them. -/
def haveDistinctKeys : List (Yaml.Node × Yaml.Node) → Bool
  | [] => true
  | (k, n) :: rest => hasDistinctKeys k && hasDistinctKeys n && haveDistinctKeys rest

end

/-- Why a file gives no settings: it has not the form of one, or a key in it names nothing. -/
inductive FileFault where
  | malformed
  | namelessKey
deriving DecidableEq

mutual

/-- The value of a node; of two faults, the one that comes first counts. -/
def ofNode : Yaml.Node → Except FileFault Value
  | .scalar s isPlain tag =>
    match ofScalar? s isPlain tag with
    | some v => .ok v
    | none => .error .malformed
  | .sequence items => do return .list (← ofNodes items)
  | .mapping entries => do return .table (← ofEntries [] entries)

def ofNodes : List Yaml.Node → Except FileFault (List Value)
  | [] => .ok []
  | n :: ns => do
    let v ← ofNode n
    let vs ← ofNodes ns
    return v :: vs

/-- The members of a mapping, put into those that are there. -/
def ofEntries (members : List (String × Value)) :
    List (Yaml.Node × Yaml.Node) → Except FileFault (List (String × Value))
  | [] => .ok members
  | (k, n) :: rest =>
    match (Key.ofNode? k).bind Key.name? with
    | none => .error .namelessKey
    | some name => do
      let v ← ofNode n
      ofEntries (putMember name v members) rest

end

/-- The members of the table that a file holds; a file without a document holds an empty one. -/
def ofFile (text : String) : Except FileFault (List (String × Value)) :=
  match Yaml.documents? text with
  | some [] => .ok []
  | some [doc] =>
    if hasDistinctKeys doc then
      match ofNode doc with
      | .ok (.table members) => .ok members
      | .ok _ => .error .malformed
      | .error fault => .error fault
    else .error .malformed
  | _ => .error .malformed

/-! ## Environments -/

/-- What the names of variables that hold settings start with. -/
def variableStart : List Char := "udr_".toList

/-- Names with a dot between two levels, which variables write as two underscores. -/
def dotted : List Char → List Char
  | '_' :: '_' :: cs => '.' :: dotted cs
  | c :: cs => c :: dotted cs
  | [] => []

/-- A name in lower case.  Of the characters outside ASCII only the kelvin sign becomes a letter of a
known name. -/
def lowerName (s : String) : String :=
  String.ofList (s.toList.map fun c => if c = '\u212a' then 'k' else c.toLower)

def ofVariables (vars : List (String × String)) : List (String × Value) :=
  vars.filterMap fun (name, s) =>
    let cs := (lowerName name).toList
    if variableStart <+: cs then
      some (String.ofList (dotted (cs.drop variableStart.length)), Value.ofVariable s)
    else none

end DataRepository.Settings
