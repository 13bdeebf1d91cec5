import DataRepository.Json.StringText

/-!
# Writing documents

The compact text of a document: no white space, the members of an object in the order in which they
are held.  A canonical document is therefore written with its names ascending, and a record that lists
its members in its own order is written in that order.
-/
namespace DataRepository.Json

mutual
def chars : Json → List Char
  | .null => ['n', 'u', 'l', 'l']
  | .bool true => ['t', 'r', 'u', 'e']
  | .bool false => ['f', 'a', 'l', 's', 'e']
  | .number n => n.chars
  | .string s => stringChars s
  | .array items => '[' :: charsItems items ++ [']']
  | .object members => '\x7b' :: charsMembers members ++ ['\x7d']
termination_by structural j => j
/-- The characters of the items, with a comma between two. -/
def charsItems : List Json → List Char
  | [] => []
  | j :: rest => j.chars ++ charsMoreItems rest
termination_by structural items => items

def charsMoreItems : List Json → List Char
  | [] => []
  | j :: rest => ',' :: j.chars ++ charsMoreItems rest
termination_by structural items => items

def charsMembers : List (String × Json) → List Char
  | [] => []
  | m :: rest => charsMember m ++ charsMoreMembers rest
termination_by structural members => members

def charsMoreMembers : List (String × Json) → List Char
  | [] => []
  | m :: rest => ',' :: charsMember m ++ charsMoreMembers rest
termination_by structural members => members

def charsMember : String × Json → List Char
  | (name, j) => stringChars name ++ ':' :: j.chars
termination_by structural m => m
end

def text (j : Json) : String := String.ofList j.chars

def toBytes (j : Json) : Bytes := Text.utf8 j.chars

def size (j : Json) : Nat := j.toBytes.length

example : (Json.object [("a", .array [.null, .bool true]), ("b", .string "x\n")]).text =
    "\x7b\"a\":[null,true],\"b\":\"x\\n\"\x7d" := by decide +kernel

end DataRepository.Json
