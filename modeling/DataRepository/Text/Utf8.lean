/-!
# UTF-8

The bytes of a text, and reading one character off the front of a byte sequence.  Only the shortest
form of a scalar value is read: no overlong form, no surrogate, nothing above U+10FFFF.
-/
namespace DataRepository

/-- A byte sequence: a message body, a file, a key. -/
abbrev Bytes := List UInt8

namespace Text

def utf8 (cs : List Char) : Bytes :=
  cs.flatMap String.utf8EncodeChar

def bytes (s : String) : Bytes :=
  utf8 s.toList

/-- The low six bits of a continuation byte, `10xxxxxx`. -/
def continuation? (b : UInt8) : Option Nat :=
  if 0x80 ≤ b ∧ b ≤ 0xbf then some (b.toNat - 0x80) else none

/-- The character with this code, if it is a scalar value of at least `least`. -/
def scalar? (least code : Nat) : Option Char :=
  if least ≤ code ∧ code.isValidChar then some (Char.ofNat code) else none

/-- The character at the front of the bytes, and the bytes after it. -/
def decodeChar? : Bytes → Option (Char × Bytes)
  | [] => none
  | a :: r =>
    if a < 0x80 then some (Char.ofNat a.toNat, r)
    else if 0xc0 ≤ a ∧ a < 0xe0 then
      match r with
      | b :: r => do
        let code := (a.toNat - 0xc0) * 64 + (← continuation? b)
        return (← scalar? 0x80 code, r)
      | _ => none
    else if 0xe0 ≤ a ∧ a < 0xf0 then
      match r with
      | b :: c :: r => do
        let code := ((a.toNat - 0xe0) * 64 + (← continuation? b)) * 64 + (← continuation? c)
        return (← scalar? 0x800 code, r)
      | _ => none
    else if 0xf0 ≤ a ∧ a < 0xf8 then
      match r with
      | b :: c :: d :: r => do
        let code := (((a.toNat - 0xf0) * 64 + (← continuation? b)) * 64 +
          (← continuation? c)) * 64 + (← continuation? d)
        return (← scalar? 0x10000 code, r)
      | _ => none
    else none

/-- The characters that the bytes spell after those in `done`, which are reversed.  The count bounds
the characters that are left. -/
def decodeFrom? : Nat → List Char → Bytes → Option (List Char)
  | _, done, [] => some done.reverse
  | 0, _, _ :: _ => none
  | n + 1, done, b :: r =>
    match decodeChar? (b :: r) with
    | some (c, rest) => decodeFrom? n (c :: done) rest
    | none => none

/-- The text that the bytes spell, if they are UTF-8. -/
def decode? (bs : Bytes) : Option String :=
  (decodeFrom? bs.length [] bs).map String.ofList

example : decode? [0x68, 0xc3, 0xa9, 0xe2, 0x82, 0xac, 0xf0, 0x9f, 0x98, 0x80] = some "hé€😀" := by
  decide

/-- Overlong forms and surrogates are not read. -/
example : decode? [0xc0, 0x80] = none ∧ decode? [0xed, 0xa0, 0x80] = none ∧
    decode? [0xf4, 0x90, 0x80, 0x80] = none := by decide

end Text

end DataRepository
