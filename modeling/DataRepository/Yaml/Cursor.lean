/-!
# Places in a YAML text

Where a reader stands: the characters that are left, and how far into the text, the lines and the line
they are.  A text ends at its first zero character, and its line breaks are made `\n` first.
-/
namespace DataRepository.Yaml

/-- A place in a text; it is fresh if nothing but blanks is before it on its line. -/
structure Cursor where
  rest : List Char
  index : Nat := 0
  line : Nat := 0
  column : Nat := 0
  fresh : Bool := true
deriving DecidableEq

/-! ## Characters -/

/-- What is found where a text has ended. -/
def endMark : Char := '\x00'

def isBlank (c : Char) : Bool := c = ' ' ∨ c = '\t'

def isLineEnd (c : Char) : Bool := c = '\n' ∨ c = endMark

/-- Whether a word ends at a character. -/
def isGap (c : Char) : Bool := isBlank c || isLineEnd c

/-- The characters that structure flow collections. -/
def isFlowMark (c : Char) : Bool := c = ',' ∨ c = '[' ∨ c = ']' ∨ c = '\x7b' ∨ c = '\x7d'

def isNameChar (c : Char) : Bool := c.isAlphanum ∨ c = '_' ∨ c = '-'

def unifyBreaks : List Char → List Char
  | '\r' :: '\n' :: cs => '\n' :: unifyBreaks cs
  | '\r' :: cs => '\n' :: unifyBreaks cs
  | c :: cs => c :: unifyBreaks cs
  | [] => []

namespace Cursor

def ofText (text : String) : Cursor :=
  { rest := unifyBreaks (text.toList.takeWhile (· ≠ endMark)) }

def head (c : Cursor) : Char := c.rest.headD endMark

/-- The character after that at a place. -/
def second (c : Cursor) : Char := c.rest.tail.headD endMark

def next (c : Cursor) : Cursor :=
  match c.rest with
  | [] => c
  | '\n' :: rest => ⟨rest, c.index + 1, c.line + 1, 0, true⟩
  | d :: rest => ⟨rest, c.index + 1, c.line, c.column + 1, c.fresh && isBlank d⟩

def skip (c : Cursor) : Nat → Cursor
  | 0 => c
  | n + 1 => c.next.skip n

/-- The number of characters from a place on that have a property. -/
def span (p : Char → Bool) (c : Cursor) : Nat := (c.rest.takeWhile p).length

/-- The place after the characters that have a property. -/
def skipWhile (p : Char → Bool) (c : Cursor) : Cursor := c.skip (c.span p)

/-- Whether one of two marks of documents stands here. -/
def atMarkOf (mark : Char) (c : Cursor) : Bool :=
  c.column = 0 ∧ c.rest.take 3 = [mark, mark, mark] ∧ isGap ((c.rest.drop 3).headD endMark)

def atMark (c : Cursor) : Bool := c.atMarkOf '-' || c.atMarkOf '.'

/-- The place after the rest of a comment. -/
def skipComment (c : Cursor) : Cursor := c.skipWhile (! isLineEnd ·)

/-- Passes over blanks and a comment, which begins after a blank; tells whether there were tabs and
whether there were spaces. -/
def skipBlanks? (c : Cursor) : Option (Cursor × Bool × Bool) :=
  let blanks := c.rest.takeWhile isBlank
  let after := c.skip blanks.length
  if after.head = '#' then
    if blanks = [] then none
    else some (after.skipComment, blanks.contains '\t', blanks.contains ' ')
  else some (after, blanks.contains '\t', blanks.contains ' ')

end Cursor

end DataRepository.Yaml
