import DataRepository.Yaml.Cursor
import DataRepository.Yaml.Token

/-!
# Layout of a YAML text

What has been read of a text: its tokens, the columns of the block collections that are open, and where
a key could have begun.  A colon tells only afterwards that a node was a key, and then the tokens for
the key, and for a block mapping that begins with it, are put in before that node.
-/
namespace DataRepository.Yaml

/-- A place where a key may have begun.  It must have been one if it is `required`. -/
structure KeyPlace where
  possible : Bool := false
  required : Bool := false
  token : Nat := 0
  index : Nat := 0
  line : Nat := 0
  column : Nat := 0

/-- A column that counts again when a collection ends.  A `slight` one is for what belongs to an entry
and starts on a line of its own. -/
structure Indent where
  column : Int
  slight : Bool

/-- What has been read of a text.  `keys` has a place for the block and one for each flow collection
that is open, and `pairs` tells of each open flow sequence whether it is in a pair without braces. -/
structure Layout where
  cursor : Cursor
  tokens : Array Token := #[]
  keys : List KeyPlace := [{}]
  keyAllowed : Bool := true
  indent : Int := -1
  indents : List Indent := []
  adjacentAt : Nat := 0
  flowMapping : Bool := false
  pairs : List Bool := []

namespace Layout

def inFlow (l : Layout) : Bool := 1 < l.keys.length

def push (l : Layout) (t : Token) : Layout := { l with tokens := l.tokens.push t }

/-- Puts a token in before the one with this number. -/
def insert (l : Layout) (n : Nat) (t : Token) : Layout :=
  { l with tokens := (l.tokens.extract 0 n).push t ++ l.tokens.extract n l.tokens.size }

def moveTo (l : Layout) (c : Cursor) : Layout := { l with cursor := c }

/-- Sets whether a key may begin here. -/
def allowKey (l : Layout) (allowed : Bool) : Layout := { l with keyAllowed := allowed }

/-! ## Keys -/

/-- The innermost place of a key. -/
def key (l : Layout) : KeyPlace := l.keys.headD {}

def setKey (l : Layout) (k : KeyPlace) : Layout := { l with keys := k :: l.keys.tail }

/-- Notes that a key may begin here. -/
def noteKey (l : Layout) : Layout :=
  if l.keyAllowed then
    l.setKey
      { possible := true
        required := ! l.inFlow && l.indent = l.cursor.column && ! l.indents.head?.any (·.slight)
        token := l.tokens.size
        index := l.cursor.index
        line := l.cursor.line
        column := l.cursor.column }
  else l

/-- Notes that no key has begun at the innermost place; none if there had to be one. -/
def dropKey? (l : Layout) : Option Layout :=
  if l.key.possible ∧ l.key.required then none
  else some (l.setKey { l.key with possible := false })

def longestKey : Nat := 0x400

/-- Whether a place is too far back for a key that ends here. -/
def isStale (l : Layout) (k : KeyPlace) : Bool :=
  k.possible && ! l.inFlow &&
    (k.line < l.cursor.line || k.index + longestKey < l.cursor.index)

/-- Notes which keys have not begun, as they would not end on their line, or be too long. -/
def dropStaleKeys? (l : Layout) : Option Layout :=
  if l.keys.any fun k => l.isStale k && k.required then none
  else some { l with
    keys := l.keys.map fun k => if l.isStale k then { k with possible := false } else k }

/-! ## Indentation -/

/-- Drops the slight indents at the front of these. -/
def dropSlightOf (l : Layout) : List Indent → Layout
  | [] => { l with indents := [] }
  | i :: rest =>
    if i.slight then dropSlightOf { l with indent := i.column } rest
    else { l with indents := i :: rest }

/-- Drops the slight indents that are innermost. -/
def dropSlight (l : Layout) : Layout := l.dropSlightOf l.indents

/-- Opens a block collection in a column, unless it is open: puts its token in as number `n`. -/
def openBlock (l : Layout) (column : Nat) (n : Nat) (t : Token) : Layout :=
  if l.inFlow then l
  else
    let l := match l.indents with
      | i :: rest =>
        if l.indent ≤ column ∧ i.slight then { l with indent := i.column, indents := rest } else l
      | [] => l
    if l.indent < (column : Int) then
      { l.insert n t with indent := (column : Int), indents := ⟨l.indent, false⟩ :: l.indents }
    else l

/-- Asks one column more of what belongs to an entry. -/
def indentSlightly (l : Layout) : Layout :=
  match l.indents with
  | i :: _ =>
    if ! l.inFlow ∧ ! i.slight then
      { l with indent := l.indent + 1, indents := ⟨l.indent, true⟩ :: l.indents }
    else l
  | [] => l

/-- Closes those of the collections with these indents that are indented more than a column. -/
def closeOf (l : Layout) (column : Int) : List Indent → Layout
  | [] => { l with indents := [] }
  | i :: rest =>
    if column < l.indent then
      closeOf { (if i.slight then l else l.push .blockEnd) with indent := i.column } column rest
    else { l with indents := i :: rest }

/-- Closes the collections that are indented more than a column. -/
def closeTo (l : Layout) (column : Int) : Layout :=
  if l.inFlow then l else l.closeOf column l.indents

/-! ## Flow collections -/

/-- The number of flow collections that may be open at once. -/
def maxFlowDepth : Nat := 0xff

def openFlow? (l : Layout) : Option Layout :=
  if l.keys.length ≤ maxFlowDepth then some { l with keys := {} :: l.keys } else none

def closeFlow (l : Layout) : Layout :=
  if l.inFlow then { l with keys := l.keys.tail } else l

/-- Ends a pair without braces in a flow sequence, if there is one. -/
def endPair (l : Layout) : Layout :=
  match l.pairs with
  | true :: rest => { l.push .flowMappingEnd with flowMapping := false, pairs := false :: rest }
  | _ => l

end Layout

end DataRepository.Yaml
