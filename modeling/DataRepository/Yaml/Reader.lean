import DataRepository.Yaml.Layout
import DataRepository.Yaml.Scalar
import DataRepository.Text.Utf8

/-!
# Reading YAML tokens

One step passes over white space and comments and reads what is there; what it is can be told from the
next four characters.  Every step but the last moves on, so that a text has no more steps than
characters.
-/
namespace DataRepository.Yaml

namespace Layout

/-! ## White space -/

/-- Passes over white space and comments, at most `count` pieces of them.  A tab may not indent what is
in a block collection. -/
def toNext? (l : Layout) : Nat → Option Layout
  | 0 => some l
  | count + 1 =>
    let c := l.cursor
    if c.head = '\t' ∧ ! l.indents.isEmpty ∧ c.fresh ∧ (c.column : Int) < l.indent then
      match c.skipBlanks? with
      | some (c, _) => if isLineEnd c.head then (l.moveTo c).toNext? count else none
      | none => none
    else if isBlank c.head then (l.moveTo c.next).toNext? count
    else if c.head = '\n' then
      let l := l.moveTo c.next
      (if l.inFlow then l else l.allowKey true).toNext? count
    else if c.head = '#' then (l.moveTo c.skipComment).toNext? count
    else some l

def skipBlanks? (l : Layout) : Option Layout := l.cursor.skipBlanks?.map fun (c, _) => l.moveTo c

/-! ## Directives and tags -/

def versionNumber? (c : Cursor) : Option Cursor :=
  let n := c.span Char.isDigit
  if n = 0 ∨ 9 < n then none else some (c.skip n)

/-- The characters of a tag between angle brackets. -/
def isUriChar (c : Char) : Bool :=
  c.isAlphanum ∨ c = '-' ∨ "#;/?:@&=+$,_.!~*'()[]%".toList.contains c

def isTagChar (c : Char) : Bool := isUriChar c && ! isFlowMark c && c ≠ '!'

/-- The bytes of percent escapes, at most `count` of them. -/
def escapedBytes (cs : List Char) : Nat → List UInt8
  | 0 => []
  | count + 1 =>
    match cs with
    | '%' :: a :: b :: rest =>
      match hexValue? a, hexValue? b with
      | some a, some b => UInt8.ofNat (a * 16 + b) :: escapedBytes rest count
      | _, _ => []
    | _ => []

/-- The number of bytes of a character that starts with this one. -/
def encodedLength (b : UInt8) : Nat :=
  if b < 0x80 then 1 else if b < 0xe0 then 2 else if b < 0xf0 then 3 else 4

/-- Reads part of a tag with its percent escapes. -/
def uri? (p : Char → Bool) (text : List Char) (c : Cursor) (count : Nat) :
    Option (List Char × Cursor) :=
  match count with
  | 0 => some (text, c)
  | count + 1 =>
    if c.head = '%' ∧ p '%' then
      let first := escapedBytes c.rest 1
      let bytes := escapedBytes c.rest (encodedLength (first.headD 0))
      match (Text.decode? bytes).map (·.toList) with
      | some [d] => uri? p (d :: text) (c.skip (3 * bytes.length)) count
      | _ => none
    else if c.rest ≠ [] ∧ p c.head then uri? p (c.head :: text) c.next count
    else some (text, c)

/-- Reads the handle of a tag: a name between exclamation marks, of which the second may be missing. -/
def handle? (directive : Bool) (c : Cursor) : Option (List Char × Cursor) :=
  if c.head ≠ '!' then none
  else
    let name := '!' :: c.next.rest.takeWhile isNameChar
    let c := c.skip name.length
    if c.head = '!' then some (name ++ ['!'], c.next)
    else if directive ∧ name ≠ ['!'] then none
    else some (name, c)

def directiveValue? (name : List Char) (c : Cursor) : Option (Token × Cursor) :=
  if name = "YAML".toList then do
    let c ← versionNumber? (c.skipWhile isBlank)
    if c.head ≠ '.' then none
    return (.version, ← versionNumber? c.next)
  else if name = "TAG".toList then do
    let (handle, c) ← handle? true (c.skipWhile isBlank)
    let c := c.skipWhile isBlank
    let local? := if c.head = '!' then some (['!'], c.next) else none
    let (start, c) ←
      match local? with
      | some (text, c) => uri? isUriChar text c c.rest.length
      | none => if isTagChar c.head then uri? isUriChar [] c c.rest.length else none
    if isGap c.head then
      return (.tagDirective (String.ofList handle) (String.ofList start.reverse), c)
    else none
  else some (.tagDirective "" "", c.skipWhile (! isLineEnd ·))

def directive? (l : Layout) : Option Layout := do
  let l ← (l.closeTo (-1)).dropKey?
  let c := l.cursor.next
  let name := c.rest.takeWhile isNameChar
  let c := c.skip name.length
  if name = [] ∨ ! isGap c.head then none
  let (token, c) ← directiveValue? name c
  let (c, _) ← c.skipBlanks?
  if isLineEnd c.head then
    return ((l.allowKey false).moveTo (if c.head = '\n' then c.next else c)).push token
  else none

def tagText? (c : Cursor) : Option (List Char × List Char × Cursor) :=
  if c.second = '<' then do
    let (text, c) ← uri? isUriChar [] (c.skip 2) c.rest.length
    if c.head = '>' then some ([], text.reverse, c.next) else none
  else do
    let (handle, c) ← handle? false c
    if 2 ≤ handle.length ∧ handle.getLast? = some '!' then
      let (text, c) ← uri? isTagChar [] c c.rest.length
      if text = [] then none else some (handle, text.reverse, c)
    else
      let (text, c) ← uri? isTagChar handle.tail.reverse c c.rest.length
      if text = [] then some ([], ['!'], c) else some (['!'], text.reverse, c)

def tag? (l : Layout) : Option Layout := do
  let l := l.noteKey.allowKey false
  let (handle, suffix, c) ← tagText? l.cursor
  if isGap c.head ∨ l.inFlow ∧ isFlowMark c.head then
    return (l.moveTo c).push (.tag (String.ofList handle) (String.ofList suffix))
  else none

def anchor? (l : Layout) : Option Layout :=
  let l := l.noteKey.allowKey false
  let c := l.cursor.next
  let name := c.rest.takeWhile fun d => ! isGap d && ! isFlowMark d && d ≠ '\ufeff'
  if name = [] then none
  else
    let text := String.ofList name
    some ((l.moveTo (c.skip name.length)).push
      (if l.cursor.head = '*' then .alias text else .anchor text))

/-! ## Documents -/

def documentStart? (l : Layout) : Option Layout := do
  let l ← (l.closeTo (-1)).dropKey?
  return ((l.allowKey false).moveTo (l.cursor.skip 3)).push .documentStart

def documentEnd? (l : Layout) : Option Layout := do
  let l ← (l.closeTo (-1)).dropKey?
  let l ← (((l.allowKey false).moveTo (l.cursor.skip 3)).push .documentEnd).skipBlanks?
  if isLineEnd l.cursor.head then some l else none

def finish? (l : Layout) : Option Layout :=
  if l.keys.any fun k => k.possible && k.required then none
  else some (l.closeTo (-1))

/-! ## Collections -/

def flowStart? (l : Layout) : Option Layout := do
  let l ← l.noteKey.indentSlightly.openFlow?
  let isMapping := l.cursor.head = '\x7b'
  let l := (l.allowKey true).moveTo l.cursor.next
  let l := if isMapping then { l with flowMapping := true } else { l with pairs := false :: l.pairs }
  let l ← l.skipBlanks?
  return l.push (if isMapping then .flowMappingStart else .flowSequenceStart)

def flowEnd? (l : Layout) : Option Layout := do
  let l := ((← l.dropKey?).closeFlow).allowKey false
  let isMapping := l.cursor.head = '\x7d'
  let l := if isMapping then l else { l.endPair with pairs := l.endPair.pairs.tail }
  let l ← (l.moveTo l.cursor.next).skipBlanks?
  let l := if l.inFlow then { l with adjacentAt := l.cursor.index } else l
  return l.push (if isMapping then .flowMappingEnd else .flowSequenceEnd)

def flowEntry? (l : Layout) : Option Layout := do
  let l := ((← l.dropKey?).allowKey true).endPair
  return (← (l.moveTo l.cursor.next).skipBlanks?).push .flowEntry

def blockEntry? (l : Layout) : Option Layout := do
  if l.inFlow ∨ ! l.keyAllowed then none
  let l := (l.moveTo l.cursor.next).openBlock l.cursor.column l.tokens.size .blockSequenceStart
  let (c, tabs, _) ← l.cursor.skipBlanks?
  if tabs ∧ c.head = '-' ∧ isGap c.second then none
  let l := l.moveTo c
  let l := if c.head = '\n' ∨ isFlowMark c.head then l.indentSlightly else l
  return ((← l.dropKey?).allowKey true).push .blockEntry

/-- Passes over spaces, line breaks and comments, at most `count` pieces of them. -/
def afterKeyMark (l : Layout) : Nat → Layout
  | 0 => l
  | count + 1 =>
    let c := l.cursor
    if c.head = ' ' then (l.moveTo c.next).afterKeyMark count
    else if c.head = '\n' then
      let l := l.moveTo c.next
      (if l.inFlow then l else l.allowKey true).afterKeyMark count
    else if c.head = '#' then (l.moveTo c.skipComment).afterKeyMark count
    else l

def keyMark? (l : Layout) : Option Layout := do
  if ! l.inFlow ∧ ! l.keyAllowed then none
  let l :=
    if l.inFlow then { l with flowMapping := true }
    else l.openBlock l.cursor.column l.tokens.size .blockMappingStart
  let l := (← l.dropKey?).allowKey (! l.inFlow)
  let c := l.cursor.next
  if c.head ≠ ' ' ∧ c.head ≠ '\n' then none
  let l := (l.moveTo c).afterKeyMark (c.rest.length + 1)
  if l.cursor.head = '\t' then none
  return l.push .key

/-- Whether what follows a colon may follow it: after a tab only what is no word. -/
def valueMayFollow? (c : Cursor) : Option (Cursor × Bool) :=
  if c.head = '\t' then
    c.skipBlanks?.map fun (c, _, spaces) => (c, spaces || ! isNameChar c.head)
  else some (c, true)

def value? (l : Layout) : Option Layout := do
  let k := l.key
  let start := l.cursor
  let isPair := ! l.pairs.isEmpty && ! l.flowMapping
  let l := if isPair then { l with pairs := true :: l.pairs.tail } else l
  let (c, allowed) ← valueMayFollow? l.cursor.next
  if ! allowed then none
  let l := l.moveTo c
  if k.possible then
    if isPair ∧ k.line < start.line then none
    let l := l.insert k.token .key
    let l := if isPair then l.insert k.token .flowMappingStart else l
    let l := (l.openBlock k.column k.token .blockMappingStart).indentSlightly
    return ((l.setKey { k with possible := false }).allowKey false).push .value
  else
    let l := if isPair then l.push .flowMappingStart else l
    if ! l.inFlow ∧ ! l.keyAllowed then none
    let l := (l.openBlock start.column l.tokens.size .blockMappingStart).indentSlightly
    return (l.allowKey (! l.inFlow)).push .value

/-! ## Scalars -/

def plainScalar? (l : Layout) : Option Layout := do
  let l := (l.noteKey.allowKey false).dropSlight
  let indent := l.indent + 1
  if l.inFlow ∧ (l.cursor.column : Int) < indent then none
  let (text, broken, c) ← plain? l.inFlow indent l.cursor
  let l := if broken then l.allowKey true else l
  return (l.moveTo c).push (.scalar true text)

/-- Whether what stands here may follow a quoted scalar that began on this line. -/
def mayFollowQuoted (l : Layout) (line : Nat) : Bool :=
  let d := l.cursor.head
  isLineEnd d || (l.inFlow && (d = ',' || d = '\x7d' || d = ']' || d = ':')) ||
    (d = ':' && line = l.cursor.line)

def quotedScalar? (l : Layout) : Option Layout := do
  let l := l.noteKey.allowKey false
  let line := l.cursor.line
  let (text, c) ← quoted? l.indent l.cursor
  let l ← (l.moveTo c).skipBlanks?
  if ! l.mayFollowQuoted line then none
  let l ← l.toNext? (l.cursor.rest.length + 1)
  return { l with adjacentAt := l.cursor.index }.push (.scalar false text)

def blockScalar? (l : Layout) : Option Layout := do
  let l := (l.noteKey.allowKey true).dropSlight
  let (text, c) ← block? l.indent l.cursor
  return (l.moveTo c).push (.scalar false text)

/-! ## Steps -/

def read? (l : Layout) : Option Layout :=
  let c := l.cursor
  let d := c.second
  if c.column = 0 ∧ c.head = '%' then l.directive?
  else if c.atMarkOf '-' then l.documentStart?
  else if c.atMarkOf '.' then l.documentEnd?
  else if (c.column : Int) < l.indent then none
  else if c.head = '[' ∨ c.head = '\x7b' then l.flowStart?
  else if c.head = ']' ∨ c.head = '\x7d' then l.flowEnd?
  else if c.head = ',' then l.flowEntry?
  else if c.head = '-' ∧ isGap d then l.blockEntry?
  else if c.head = '?' ∧ isGap d then l.keyMark?
  else if c.head = ':' ∧ (isGap d ∨ l.inFlow ∧ (isFlowMark d ∨ c.index = l.adjacentAt)) then l.value?
  else if c.head = '*' ∨ c.head = '&' then l.anchor?
  else if c.head = '!' then l.tag?
  else if (c.head = '|' ∨ c.head = '>') ∧ ! l.inFlow then l.blockScalar?
  else if c.head = '\'' ∨ c.head = '"' then l.quotedScalar?
  else if c.head = '%' ∨ c.head = '@' ∨ c.head = '\x60' then none
  else l.plainScalar?

def readAll? (l : Layout) : Nat → Option Layout
  | 0 => none
  | count + 1 => do
    let l ← l.toNext? (l.cursor.rest.length + 1)
    let l ← l.dropStaleKeys?
    let l := l.closeTo l.cursor.column
    if l.cursor.rest = [] then l.finish?
    else (← l.read?).readAll? count

end Layout

def Token.ofText? (text : String) : Option (List Token) :=
  let c := Cursor.ofText text
  (({ cursor := c } : Layout).readAll? (c.rest.length + 1)).map (·.tokens.toList)

end DataRepository.Yaml
