import DataRepository.Yaml.Cursor

/-!
# YAML scalars

Plain scalars, quoted scalars and block scalars.  A line break inside a plain or quoted scalar is
folded: one becomes a space, and of several the first is dropped.  `indent` is the least column of
the lines of a scalar, but for a block scalar that of the collection around it.
-/
namespace DataRepository.Yaml

/-! ## Gaps between words -/

/-- What is between two words of a scalar: blanks on one line, or line breaks with the blanks around
them, of which the first may be escaped. -/
inductive Gap where
  | blanks (cs : List Char)
  | breaks (escaped : Bool) (count : Nat)

namespace Gap

/-- What a gap becomes between two words. -/
def text : Gap → List Char
  | blanks cs => cs.reverse
  | breaks false 1 => [' ']
  | breaks false n => List.replicate (n - 1) '\n'
  | breaks true n => List.replicate n '\n'

/-- The gap with one line break more. -/
def broken : Gap → Gap
  | blanks _ => breaks false 1
  | breaks escaped n => breaks escaped (n + 1)

/-- Whether a gap goes over the end of a line. -/
def isBroken : Gap → Bool
  | blanks _ => false
  | breaks _ _ => true

/-- Reads a gap further.  A tab may not indent a line; in a `lenient` gap it may where nothing else is
on the line. -/
def read? (lenient : Bool) (indent : Int) (g : Gap) (c : Cursor) (count : Nat) :
    Option (Gap × Cursor) :=
  match count with
  | 0 => some (g, c)
  | count + 1 =>
    if c.head = '\n' then read? lenient indent g.broken c.next count
    else if isBlank c.head then
      match g with
      | .blanks cs => read? lenient indent (.blanks (c.head :: cs)) c.next count
      | .breaks _ _ =>
        if c.head = '\t' ∧ (c.column : Int) < indent then
          if lenient then
            match c.skipBlanks? with
            | some (c, _) => if isLineEnd c.head then read? lenient indent g c count else none
            | none => none
          else none
        else read? lenient indent g c.next count
    else some (g, c)

end Gap

/-! ## Plain scalars -/

/-- Whether a word of a plain scalar goes on with these characters. -/
def goesOn (flow : Bool) : List Char → Bool
  | [] => false
  | c :: rest =>
    let d := rest.headD endMark
    ! isGap c && ! (c = ':' ∧ (isGap d ∨ flow ∧ isFlowMark d)) && ! (flow && isFlowMark c)

/-- The length of the word of a plain scalar. -/
def wordLength (flow : Bool) : List Char → Nat
  | [] => 0
  | c :: rest => if goesOn flow (c :: rest) then wordLength flow rest + 1 else 0

/-- Reads the words of a plain scalar, at most `count` of them, after its text so far, which is
reversed, and a gap. -/
def plainWords? (flow : Bool) (indent : Int) (text : List Char) (g : Gap) (c : Cursor) (count : Nat) :
    Option (List Char × Gap × Cursor) :=
  match count with
  | 0 => some (text, g, c)
  | count + 1 =>
    if c.atMark ∨ c.head = '#' then some (text, g, c)
    else if flow ∧ c.head = '-' ∧ isFlowMark c.second then none
    else
      let n := wordLength flow c.rest
      let text := if n = 0 then text else (c.rest.take n).reverse ++ g.text.reverse ++ text
      let g := if n = 0 then g else .blanks []
      let c := c.skip n
      if isBlank c.head ∨ c.head = '\n' then
        match g.read? true indent c c.rest.length with
        | none => none
        | some (g, c) =>
          if ! flow ∧ (c.column : Int) < indent then some (text, g, c)
          else plainWords? flow indent text g c count
      else some (text, g, c)

/-- Reads a plain scalar; tells also whether it ends with a line break. -/
def plain? (flow : Bool) (indent : Int) (c : Cursor) : Option (String × Bool × Cursor) :=
  (plainWords? flow indent [] (.blanks []) c (c.rest.length + 1)).map fun (text, g, c) =>
    (String.ofList text.reverse, g.isBroken, c)

/-! ## Quoted scalars -/

def escaped? (c : Char) : Option Char :=
  match c with
  | '0' => some '\x00'
  | 'a' => some '\x07'
  | 'b' => some '\x08'
  | 't' => some '\t'
  | '\t' => some '\t'
  | 'n' => some '\n'
  | 'v' => some '\x0b'
  | 'f' => some '\x0c'
  | 'r' => some '\r'
  | 'e' => some '\x1b'
  | ' ' => some ' '
  | '"' => some '"'
  | '/' => some '/'
  | '\\' => some '\\'
  | 'N' => some '\u0085'
  | '_' => some '\u00a0'
  | 'L' => some '\u2028'
  | 'P' => some '\u2029'
  | _ => none

/-- The number of digits in an escape by code point. -/
def escapeDigits? (c : Char) : Option Nat :=
  match c with
  | 'x' => some 2
  | 'u' => some 4
  | 'U' => some 8
  | _ => none

def hexValue? (c : Char) : Option Nat :=
  if '0' ≤ c ∧ c ≤ '9' then some (c.toNat - '0'.toNat)
  else if 'a' ≤ c ∧ c ≤ 'f' then some (c.toNat - 'a'.toNat + 10)
  else if 'A' ≤ c ∧ c ≤ 'F' then some (c.toNat - 'A'.toNat + 10)
  else none

def hexNumber? (cs : List Char) : Option Nat :=
  cs.foldlM (fun n c => (hexValue? c).map (n * 16 + ·)) 0

/-- Reads an escape after its backslash: the character it stands for, and its length. -/
def escape? (cs : List Char) : Option (Char × Nat) :=
  match cs with
  | [] => none
  | c :: rest =>
    match escapeDigits? c with
    | none => (escaped? c).map (·, 1)
    | some n => do
      let digits := rest.take n
      if digits.length < n then none
      let value ← hexNumber? digits
      if value.isValidChar then some (Char.ofNat value, n + 1) else none

/-- Reads the text of a quoted scalar up to a gap or its end; tells whether an escaped line break ends
it. -/
def quotedWord? (double : Bool) (text : List Char) (c : Cursor) (count : Nat) :
    Option (List Char × Bool × Cursor) :=
  match count with
  | 0 => some (text, false, c)
  | count + 1 =>
    if isGap c.head then some (text, false, c)
    else if double then
      if c.head = '"' then some (text, false, c)
      else if c.head = '\\' then
        if c.second = '\n' then some (text, true, c.skip 2)
        else do
          let (d, n) ← escape? c.rest.tail
          quotedWord? double (d :: text) (c.skip (n + 1)) count
      else quotedWord? double (c.head :: text) c.next count
    else if c.head = '\'' then
      if c.second = '\'' then quotedWord? double ('\'' :: text) (c.skip 2) count
      else some (text, false, c)
    else quotedWord? double (c.head :: text) c.next count

/-- Reads the words of a quoted scalar, at most `count` of them, up to its closing quote. -/
def quotedWords? (double : Bool) (indent : Int) (text : List Char) (c : Cursor) (count : Nat) :
    Option (List Char × Cursor) :=
  match count with
  | 0 => none
  | count + 1 =>
    if c.atMark ∨ c.rest = [] ∨ (c.column : Int) < indent then none
    else do
      let (text, escaped, c) ← quotedWord? double text c c.rest.length
      if c.head = (if double then '"' else '\'') then some (text, c)
      else
        let g : Gap := if escaped then .breaks true 0 else .blanks []
        let (g, c) ← g.read? false indent c c.rest.length
        quotedWords? double indent (g.text.reverse ++ text) c count

def quoted? (indent : Int) (c : Cursor) : Option (String × Cursor) :=
  (quotedWords? (c.head = '"') indent [] c.next (c.rest.length + 1)).map fun (text, c) =>
    (String.ofList text.reverse, c.next)

/-! ## Block scalars -/

/-- What becomes of the line breaks at the end of a block scalar. -/
inductive Chomping where
  | strip
  | clip
  | keep
deriving DecidableEq

def Chomping.ofChar? (c : Char) : Option Chomping :=
  if c = '+' then some .keep else if c = '-' then some .strip else none

def indentation? (c : Char) : Option Nat :=
  if '0' ≤ c ∧ c ≤ '9' then some (c.toNat - '0'.toNat) else none

/-- Reads the first line of a block scalar after its mark: how it is chomped, and its indentation or
zero. -/
def blockHeader? (c : Cursor) : Option (Chomping × Nat × Cursor) := do
  let (chomping, indentation, c) :=
    match Chomping.ofChar? c.head, indentation? c.head with
    | some chomping, _ =>
      match indentation? c.second with
      | some n => (chomping, some n, c.skip 2)
      | none => (chomping, none, c.next)
    | none, some n =>
      match Chomping.ofChar? c.second with
      | some chomping => (chomping, some n, c.skip 2)
      | none => (.clip, some n, c.next)
    | none, none => (.clip, none, c)
  if indentation = some 0 then none
  let (c, _) ← c.skipBlanks?
  if isLineEnd c.head then return (chomping, indentation.getD 0, c) else none

/-- Passes over empty lines and the indentation of the next one; tells how many lines. -/
def skipIndentation (indent breaks : Nat) (c : Cursor) (count : Nat) : Nat × Cursor :=
  match count with
  | 0 => (breaks, c)
  | count + 1 =>
    let c := c.skip (min (c.span (· = ' ')) (indent - c.column))
    if c.head = '\n' then skipIndentation indent (breaks + 1) c.next count else (breaks, c)

/-- Passes over empty lines and the spaces of the next one; tells how many lines and the greatest
number of spaces. -/
def firstIndentation (greatest breaks : Nat) (c : Cursor) (count : Nat) : Nat × Nat × Cursor :=
  match count with
  | 0 => (greatest, breaks, c)
  | count + 1 =>
    let c := c.skipWhile (· = ' ')
    let greatest := max greatest c.column
    if c.head = '\n' then firstIndentation greatest (breaks + 1) c.next count
    else (greatest, breaks, c)

/-- What has been read of a block scalar: its text, reversed; whether a line break is to come and how
many empty lines; and whether its last line starts with a blank. -/
structure BlockText where
  text : List Char := []
  isBroken : Bool := false
  emptyLines : Nat := 0
  blank : Bool := false

def BlockText.addLine (isFolded : Bool) (b : BlockText) (line : List Char) : BlockText :=
  let blank := line.head?.any isBlank
  let gap :=
    if isFolded ∧ b.isBroken ∧ ! b.blank ∧ ! blank then
      if b.emptyLines = 0 then [' '] else List.replicate b.emptyLines '\n'
    else List.replicate ((if b.isBroken then 1 else 0) + b.emptyLines) '\n'
  { text := line.reverse ++ gap ++ b.text, blank }

/-- Reads the lines of a block scalar from the indentation of a line on. -/
def blockLines (isFolded : Bool) (indent : Nat) (b : BlockText) (c : Cursor) (count : Nat) :
    BlockText × Cursor :=
  match count with
  | 0 => (b, c)
  | count + 1 =>
    if c.column ≠ indent ∨ c.rest = [] ∨ (indent = 0 ∧ c.atMarkOf '.') then (b, c)
    else
      let n := c.span (! isLineEnd ·)
      let b := b.addLine isFolded (c.rest.take n)
      let c := c.skip n
      if c.rest = [] then (b, c)
      else
        let (emptyLines, c) := skipIndentation indent 0 c.next c.rest.length
        blockLines isFolded indent { b with isBroken := true, emptyLines } c count

/-- The line breaks at the end of a block scalar, whose reader stopped here. -/
def blockEnd (chomping : Chomping) (indent : Nat) (b : BlockText) (c : Cursor) : List Char :=
  let last := if b.isBroken then 1 else 0
  let unbroken := if c.rest = [] ∧ max indent 1 ≤ c.column then 1 else 0
  match chomping with
  | .strip => []
  | .clip => List.replicate (last + unbroken) '\n'
  | .keep => List.replicate (last + unbroken + b.emptyLines) '\n'

def block? (indent : Int) (c : Cursor) : Option (String × Cursor) := do
  let isFolded := c.head = '>'
  let line := c.line
  let (chomping, indentation, c) ← blockHeader? c.next
  let headerBreak := if c.head = '\n' then 1 else 0
  let c := if c.head = '\n' then c.next else c
  if c.head = '\t' then none
  let (width, breaks, c) :=
    if indentation = 0 then
      let (greatest, breaks, c) := firstIndentation 0 0 c (c.rest.length + 1)
      let width := max greatest (indent + 1).toNat
      (if 0 < indent then max width 1 else width, breaks, c)
    else
      let width := indent.toNat + indentation
      let (breaks, c) := skipIndentation width 0 c (c.rest.length + 1)
      (width, breaks, c)
  if c.rest = [] then
    let breaks :=
      if chomping = .strip ∨ c.line = line then 0
      else if chomping = .keep ∧ breaks ≠ 0 then breaks
      else headerBreak
    return (String.ofList (List.replicate breaks '\n'), c)
  else if c.column < width ∧ indent < (c.column : Int) then none
  else
    let (b, c) := blockLines isFolded width { emptyLines := breaks } c (c.rest.length + 1)
    return (String.ofList (b.text.reverse ++ blockEnd chomping width b c), c)

example : (plain? false 1 (.ofText "a b\n  c: d")).map (·.1) = some "a b c" ∧
    (quoted? 0 (.ofText "\"a\\x41\\\n  b\" ")).map (·.1) = some "aAb" ∧
    (block? 0 (.ofText "|\n  a\n   b\n\n  c")).map (·.1) = some "a\n b\n\nc\n" ∧
    (block? 0 (.ofText ">-\n  a\n  b\n")).map (·.1) = some "a b" := by decide +kernel

end DataRepository.Yaml
