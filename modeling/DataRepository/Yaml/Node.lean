import DataRepository.Yaml.Reader

/-!
# YAML nodes

Reading nodes from tokens.  An alias stands for the node with its anchor, and a tag is kept with the
scalar that has it.  Where the text has no node, there is one without text.

Every reader takes a bound on the depth of nodes; `bound` gives one that the tokens cannot reach.
-/
namespace DataRepository.Yaml

structure Tag where
  handle : String
  suffix : String
deriving DecidableEq

/-- A node.  A plain scalar is one that was written without quotes. -/
inductive Node where
  | scalar (text : String) (isPlain : Bool) (tag : Option Tag)
  | sequence (items : List Node)
  | mapping (entries : List (Node × Node))

/-- The node where none is written. -/
def Node.missing : Node := .scalar "~" true none

/-- What is left to read of the tokens, the numbers of the anchors by name, the nodes that they stand
for as far as they have been read, and the handles of tags by name. -/
structure Reading where
  tokens : List Token
  names : List (String × Nat) := []
  anchored : Array Node := #[]
  handles : List (String × String) := []

/-- Reads from tokens; fails if they have no such form. -/
abbrev Parse := StateT Reading Option

def peek : Parse (Option Token) := return (← get).tokens.head?

def advance : Parse Unit := modify fun r => { r with tokens := r.tokens.tail }

/-- Passes over a token that has to come. -/
def expect (t : Token) : Parse Unit := do
  if (← peek) = some t then advance else failure

/-- Passes over a token if it comes. -/
def accept (t : Token) : Parse Bool := do
  if (← peek) = some t then advance; return true else return false

/-! ## Properties of nodes -/

/-- Gives a name to the node that is read next. -/
def register (name : String) : Parse Nat := do
  let r ← get
  let n := r.anchored.size
  set { r with names := (name, n) :: r.names, anchored := r.anchored.push .missing }
  return n

/-- The node that an alias stands for; one that is still being read is missing. -/
def aliased (name : String) : Parse Node := do
  let r ← get
  match r.names.find? (·.1 = name) with
  | some (_, n) => return r.anchored.getD n .missing
  | none => failure

/-- The tag with this handle and suffix; a named handle must have been declared. -/
def resolve (handle suffix : String) : Parse Tag := do
  let r ← get
  let declared := (r.handles.find? (·.1 = handle)).map (·.2)
  if handle = "!!" then return ⟨declared.getD "tag:yaml.org,2002:", suffix⟩
  else
    match declared with
    | some start => return ⟨start, suffix⟩
    | none =>
      if 2 ≤ handle.length ∧ handle.startsWith "!" ∧ handle.endsWith "!" then failure
      else return ⟨handle, suffix⟩

def anchor? : Parse (Option Nat) := do
  match ← peek with
  | some (.anchor name) => advance; return some (← register name)
  | _ => return none

def tag? : Parse (Option Tag) := do
  match ← peek with
  | some (.tag handle suffix) => advance; return some (← resolve handle suffix)
  | _ => return none

/-- Reads an anchor and a tag in either order, each of which may be missing. -/
def properties : Parse (Option Nat × Option Tag) := do
  match ← anchor? with
  | some n => return (some n, ← tag?)
  | none =>
    match ← tag? with
    | some t => return (← anchor?, some t)
    | none => return (none, none)

/-- Keeps a node under the number of its anchor. -/
def keep (anchor : Option Nat) (node : Node) : Parse Node := do
  match anchor with
  | some n => modify fun r => { r with anchored := r.anchored.setIfInBounds n node }
  | none => pure ()
  return node

/-- The node of which only an anchor or a tag is written. -/
def bare (anchor : Option Nat) (tag : Option Tag) : Parse Node :=
  if anchor.isSome ∨ tag.isSome then keep anchor (.scalar "" true tag) else failure

/-! ## Nodes -/

/-- Whether an entry of a block has no node before this token. -/
def endsBlockNode : Option Token → Bool
  | some .key => true
  | some .value => true
  | some .blockEnd => true
  | _ => false

mutual

/-- Reads a node: in a block or in a flow collection, and perhaps a sequence in the column of its
key. -/
def node (inBlock level : Bool) : Nat → Parse Node
  | 0 => failure
  | count + 1 => do
    match ← peek with
    | some (.alias name) => advance; aliased name
    | _ =>
      let (anchor, tag) ← properties
      match ← peek with
      | some (.scalar isPlain text) =>
        advance
        keep anchor (.scalar text isPlain tag)
      | some .flowSequenceStart => advance; keep anchor (.sequence (← flowItems true count))
      | some .flowMappingStart => advance; keep anchor (.mapping (← flowEntries true count))
      | some t =>
        if t = .blockEntry ∧ level then keep anchor (.sequence (← levelItems count))
        else if t = .blockSequenceStart ∧ inBlock then
          advance
          keep anchor (.sequence (← blockItems count))
        else if t = .blockMappingStart ∧ inBlock then
          advance
          keep anchor (.mapping (← blockEntries count))
        else bare anchor tag
      | none => bare anchor tag

def blockItems : Nat → Parse (List Node)
  | 0 => failure
  | count + 1 => do
    if ← accept .blockEnd then return []
    expect .blockEntry
    let next ← peek
    let item ←
      if next = some .blockEntry ∨ next = some .blockEnd then pure Node.missing
      else node true false count
    return item :: (← blockItems count)

/-- Reads the items of a sequence that stand in the column of their key. -/
def levelItems : Nat → Parse (List Node)
  | 0 => failure
  | count + 1 => do
    if ← accept .blockEntry then
      let next ← peek
      let item ←
        if next = some .blockEntry ∨ endsBlockNode next then pure Node.missing
        else node true false count
      return item :: (← levelItems count)
    else return []

def blockPart (mark : Token) (count : Nat) : Parse Node :=
  match count with
  | 0 => failure
  | count + 1 => do
    if ← accept mark then
      if endsBlockNode (← peek) then return .missing else node true true count
    else return .missing

def blockEntries : Nat → Parse (List (Node × Node))
  | 0 => failure
  | count + 1 => do
    if ← accept .blockEnd then return []
    let next ← peek
    if next ≠ some .key ∧ next ≠ some .value then failure
    let key ← blockPart .key count
    let value ← blockPart .value count
    return (key, value) :: (← blockEntries count)

/-- Reads the value in a flow collection, which may be missing before `last`. -/
def flowValue (last : Token) : Nat → Parse Node
  | 0 => failure
  | count + 1 => do
    if ← accept .value then
      let next ← peek
      if next = some .flowEntry ∨ next = some last then return .missing
      else node false false count
    else return .missing

def flowPair : Nat → Parse Node
  | 0 => failure
  | count + 1 => do
    let next ← peek
    let key ←
      if next = some .value ∨ next = some .flowEntry ∨ next = some .flowSequenceEnd then
        advance
        pure Node.missing
      else node false false count
    return .mapping [(key, ← flowValue .flowSequenceEnd count)]

def flowItems (first : Bool) : Nat → Parse (List Node)
  | 0 => failure
  | count + 1 => do
    if ← accept .flowSequenceEnd then return []
    if ! first then expect .flowEntry
    if ← accept .flowSequenceEnd then return []
    let item ← if ← accept .key then flowPair count else node false false count
    return item :: (← flowItems false count)

def flowEntries (first : Bool) : Nat → Parse (List (Node × Node))
  | 0 => failure
  | count + 1 => do
    if ← accept .flowMappingEnd then return []
    if ! first then expect .flowEntry
    if ← accept .flowMappingEnd then return []
    let entry ←
      if ← accept .key then
        let next ← peek
        let key ←
          if next = some .value ∨ next = some .flowEntry ∨ next = some .flowMappingEnd then
            pure Node.missing
          else node false false count
        pure (key, ← flowValue .flowMappingEnd count)
      else if (← peek) = some .value then
        pure (Node.missing, ← flowValue .flowMappingEnd count)
      else pure (← node false false count, Node.missing)
    return entry :: (← flowEntries false count)

end

/-! ## Documents -/

/-- A bound on the depth of the nodes of tokens. -/
def bound (ts : List Token) : Nat := 3 * ts.length + 3

/-- Passes over directives; only the last one can declare a handle, and there is one version. -/
def directives (versioned : Bool) : Nat → Parse Unit
  | 0 => failure
  | count + 1 => do
    match ← peek with
    | some .version =>
      if versioned then failure
      modify fun r => { r with handles := [] }
      advance
      directives true count
    | some (.tagDirective handle start) =>
      modify fun r => { r with handles := [(handle, start)] }
      advance
      directives versioned count
    | _ => pure ()

/-- Passes over the marks after documents. -/
def documentEnds : Nat → Parse Unit
  | 0 => failure
  | count + 1 => do if ← accept .documentEnd then documentEnds count

def isDirective : Option Token → Bool
  | some .version => true
  | some (.tagDirective _ _) => true
  | _ => false

/-- Reads the documents; `free` if the next one may begin without a mark. -/
def documents (free : Bool) : Nat → Parse (List Node)
  | 0 => failure
  | count + 1 => do
    documentEnds (count + 1)
    let depth := bound (← get).tokens
    modify fun r => { r with names := [] }
    match ← peek with
    | none => return []
    | some t =>
      let doc ←
        if free ∧ t ≠ .documentStart ∧ ! isDirective (some t) then node true false depth
        else do
          directives false (count + 1)
          expect .documentStart
          let next ← peek
          if next.isNone ∨ next = some .documentStart ∨ next = some .documentEnd ∨ isDirective next
          then pure Node.missing
          else node true false depth
      let ended ← accept .documentEnd
      modify fun r => { r with handles := [] }
      if ! ended ∧ isDirective (← peek) then failure
      return doc :: (← documents ended count)

def documents? (text : String) : Option (List Node) := do
  let tokens ← Token.ofText? text
  return (← (documents true (tokens.length + 2)).run { tokens }).1

end DataRepository.Yaml
