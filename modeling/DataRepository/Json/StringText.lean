import DataRepository.Json.Fault
import DataRepository.Text.Hexadecimal

/-!
# Strings of a text

Writing a string between quotes, with the short escapes and `\u00xx` for the other control
characters, and reading one back.  A reader takes any escape; what it takes without escape is UTF-8
and no control character.
-/
namespace DataRepository.Json

/-! ## Writing -/

def escaped (c : Char) : List Char :=
  if c == '"' then ['\\', '"']
  else if c == '\\' then ['\\', '\\']
  else if c == '\x08' then ['\\', 'b']
  else if c == '\x0c' then ['\\', 'f']
  else if c == '\n' then ['\\', 'n']
  else if c == '\r' then ['\\', 'r']
  else if c == '\t' then ['\\', 't']
  else if c.toNat < 0x20 then ['\\', 'u', '0', '0'] ++ Text.Hexadecimal.pair c.toNat
  else [c]

def stringChars (s : String) : List Char :=
  '"' :: s.toList.flatMap escaped ++ ['"']

/-! ## Reading -/

def hexQuad (bs : Bytes) : Scan Nat :=
  match bs with
  | a :: b :: c :: d :: rest =>
    match hexDigit? a, hexDigit? b, hexDigit? c, hexDigit? d with
    | some a, some b, some c, some d => .ok (((a * 16 + b) * 16 + c) * 16 + d, rest)
    | _, _, _, _ => failHere .invalidEscape rest
  | _ => failHere .endInString []

/-- Whether the number is a surrogate that comes first in a pair. -/
def isLeading (n : Nat) : Bool := 0xd800 ≤ n && n ≤ 0xdbff

/-- Whether the number is a surrogate that comes second in a pair. -/
def isTrailing (n : Nat) : Bool := 0xdc00 ≤ n && n ≤ 0xdfff

/-- The byte that must follow a leading surrogate's escape. -/
def expectInPair (c : Char) (bs : Bytes) : Except Fault Bytes :=
  match bs with
  | [] => failHere .endInString []
  | b :: rest => if is c b then .ok rest else failHere .endInHexEscape rest

/-- The character spelled after a backslash and `u`: four digits, or two escapes that form a
surrogate pair. -/
def unicodeEscape (bs : Bytes) : Except Fault (Char × Bytes) := do
  let (n, rest) ← hexQuad bs
  if isTrailing n then failHere .loneSurrogate rest
  else if isLeading n then
    let rest ← expectInPair '\\' rest
    let rest ← expectInPair 'u' rest
    let (m, rest) ← hexQuad rest
    if isTrailing m then
      return (Char.ofNat ((n - 0xd800) * 1024 + (m - 0xdc00) + 0x10000), rest)
    else failHere .loneSurrogate rest
  else return (Char.ofNat n, rest)

/-- The character that stands for itself or for a control character after a backslash. -/
def shortEscape? (b : UInt8) : Option Char :=
  if is '"' b then some '"'
  else if is '\\' b then some '\\'
  else if is '/' b then some '/'
  else if is 'b' b then some '\x08'
  else if is 'f' b then some '\x0c'
  else if is 'n' b then some '\n'
  else if is 'r' b then some '\r'
  else if is 't' b then some '\t'
  else none

def escape (bs : Bytes) : Scan Char :=
  match bs with
  | [] => failHere .endInString []
  | b :: rest =>
    match shortEscape? b with
    | some c => .ok (c, rest)
    | none => if is 'u' b then unicodeEscape rest else failHere .invalidEscape rest

/-- Reads to the closing quote of a string that starts with `start`.  `done` holds the characters read,
reversed, and `bad` the number of bytes read from the first that is no UTF-8: that is a fault only once
the string is known to end, and its place is as many bytes before the end.  Every step takes a byte, so
the count is the number of bytes. -/
def stringFrom (start : Bytes) (count : Nat) (done : List Char) (bad : Option Nat) (bs : Bytes) :
    Scan String :=
  match count, bs with
  | 0, rest => failHere .endInString rest
  | _ + 1, [] => failHere .endInString []
  | count + 1, b :: rest =>
    if is '"' b then
      match bad with
      | some n =>
        .error ⟨.invalidCodePoint, rest, some (start.drop (start.length - (rest.length + n)))⟩
      | none => .ok (String.ofList done.reverse, rest)
    else if is '\\' b then
      match escape rest with
      | .ok (c, rest) => stringFrom start count (c :: done) (bad.map (· + c.utf8Size)) rest
      | .error f => .error f
    else if b < 0x20 then failHere .controlCharacter rest
    else
      match Text.decodeChar? (b :: rest) with
      | some (c, rest) => stringFrom start count (c :: done) (bad.map (· + c.utf8Size)) rest
      | none => stringFrom start count done (some (bad.getD 0 + 1)) rest

def stringText (bs : Bytes) : Scan String :=
  stringFrom bs (bs.length + 1) [] none bs

/-! ## Passing over -/

/-- Passes over what follows a backslash; four digits need not spell a character. -/
def skipEscape (bs : Bytes) : Except Fault Bytes :=
  match bs with
  | [] => failHere .endInString []
  | b :: rest =>
    if (shortEscape? b).isSome then .ok rest
    else if is 'u' b then (hexQuad rest).map (·.2)
    else failHere .invalidEscape rest

/-- Passes over a string after its opening quote, of any bytes but control characters. -/
def skipString (count : Nat) (bs : Bytes) : Except Fault Bytes :=
  match count, bs with
  | 0, rest => failHere .endInString rest
  | _ + 1, [] => failHere .endInString []
  | count + 1, b :: rest =>
    if is '"' b then .ok rest
    else if is '\\' b then
      match skipEscape rest with
      | .ok rest => skipString count rest
      | .error f => .error f
    else if b < 0x20 then failHere .controlCharacter (b :: rest)
    else skipString count rest

end DataRepository.Json
