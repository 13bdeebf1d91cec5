import DataRepository.Json.Mismatch
import DataRepository.Text.Utf8

/-!
# Faults of a text

Why a text is not a document, and where.  A reader works on the bytes that are left; a fault keeps
the bytes that were left when it arose, and its place is found by comparing them with the whole
text.  Lines count from one, columns count the bytes of the line that have been consumed.
-/
namespace DataRepository.Json

/-- Why a text is not the document that was asked for. -/
inductive Reason where
  | endInValue
  | endInList
  | endInObject
  | endInString
  | expectedColon
  | expectedListEnd
  | expectedObjectEnd
  | expectedIdent
  | expectedValue
  | keyNotString
  | trailingComma
  | trailingCharacters
  | controlCharacter
  | invalidEscape
  | invalidNumber
  | numberOutOfRange
  | invalidCodePoint
  | loneSurrogate
  | endInHexEscape
  | tooDeep
  | mismatch (why : Mismatch)
deriving DecidableEq

def Reason.text : Reason → String
  | .endInValue => "EOF while parsing a value"
  | .endInList => "EOF while parsing a list"
  | .endInObject => "EOF while parsing an object"
  | .endInString => "EOF while parsing a string"
  | .expectedColon => "expected `:`"
  | .expectedListEnd => "expected `,` or `]`"
  | .expectedObjectEnd => "expected `,` or `\x7d`"
  | .expectedIdent => "expected ident"
  | .expectedValue => "expected value"
  | .keyNotString => "key must be a string"
  | .trailingComma => "trailing comma"
  | .trailingCharacters => "trailing characters"
  | .controlCharacter => "control character (\\u0000-\\u001F) found while parsing a string"
  | .invalidEscape => "invalid escape"
  | .invalidNumber => "invalid number"
  | .numberOutOfRange => "number out of range"
  | .invalidCodePoint => "invalid unicode code point"
  | .loneSurrogate => "lone leading surrogate in hex escape"
  | .endInHexEscape => "unexpected end of hex escape"
  | .tooDeep => "recursion limit exceeded"
  | .mismatch why => why.text

/-- A reason, the bytes that the reader had left, and the bytes after the place that is reported; the
place is open until the reader that noticed a mismatch knows how far it went on. -/
structure Fault where
  reason : Reason
  rest : Bytes
  place : Option Bytes
deriving DecidableEq

/-- What a reader gives: a value and the bytes left, or a fault. -/
abbrev Scan (α : Type) := Except Fault (α × Bytes)

def failHere {α : Type} (reason : Reason) (rest : Bytes) : Except Fault α :=
  .error ⟨reason, rest, some rest⟩

/-- A fault reported after the byte that the reader looks at but has not taken. -/
def failNext {α : Type} (reason : Reason) (rest : Bytes) : Except Fault α :=
  .error ⟨reason, rest, some rest.tail⟩

def failOpen {α : Type} (why : Mismatch) (rest : Bytes) : Except Fault α :=
  .error ⟨.mismatch why, rest, none⟩

/-- Reports a fault whose place is open where the reader stands. -/
def Fault.settle (f : Fault) : Fault :=
  match f.place with
  | some _ => f
  | none => { f with place := some f.rest }

structure Position where
  line : Nat
  column : Nat
deriving DecidableEq

/-- The position after these bytes. -/
def Position.after (consumed : Bytes) : Position :=
  ⟨consumed.count 10 + 1, (consumed.reverse.takeWhile (· != 10)).length⟩

/-- The position in `text` at which `rest` is left. -/
def Position.before (text rest : Bytes) : Position :=
  .after (text.take (text.length - rest.length))

/-- The words for a fault of `text`, with its line and column. -/
def Fault.text (f : Fault) (text : Bytes) : String :=
  let p := Position.before text (f.place.getD f.rest)
  f.reason.text ++ " at line " ++ toString p.line ++ " column " ++ toString p.column

/-! ## Bytes -/

def is (c : Char) (b : UInt8) : Bool := b == c.toUInt8

def isSpace (b : UInt8) : Bool := is ' ' b || is '\t' b || is '\n' b || is '\r' b

/-- The bytes from the first that is no white space. -/
def skipSpace (bs : Bytes) : Bytes := bs.dropWhile isSpace

def digit? (b : UInt8) : Option Nat :=
  if 48 ≤ b ∧ b ≤ 57 then some (b.toNat - 48) else none

def isDigit (b : UInt8) : Bool := 48 ≤ b && b ≤ 57

/-- Whether the bytes begin with a digit. -/
def startsWithDigit : Bytes → Bool
  | b :: _ => isDigit b
  | [] => false

def hexDigit? (b : UInt8) : Option Nat :=
  if 48 ≤ b ∧ b ≤ 57 then some (b.toNat - 48)
  else if 97 ≤ b ∧ b ≤ 102 then some (b.toNat - 87)
  else if 65 ≤ b ∧ b ≤ 70 then some (b.toNat - 55)
  else none

/-- Reads the rest of a literal. -/
def literal (expected : List Char) (bs : Bytes) : Except Fault Bytes :=
  match expected, bs with
  | [], bs => .ok bs
  | _ :: _, [] => failHere .endInValue []
  | c :: cs, b :: rest => if is c b then literal cs rest else failHere .expectedIdent rest

end DataRepository.Json
