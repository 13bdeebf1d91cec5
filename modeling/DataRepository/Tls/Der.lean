import DataRepository.Number.BigEndian

/-!
# Tagged elements

Keys and certificates are trees of elements: a tag, a length in its shortest form, and as many bytes
of content, which may be elements again.  A reader sets a limit that lengths stay below.

- `element?_bytes`: reading undoes writing.
-/
namespace DataRepository.Tls.Der

structure Element where
  tag : UInt8
  content : Bytes
deriving DecidableEq

/-! ## Tags -/

def boolean : UInt8 := 0x01

def integer : UInt8 := 0x02

def bitString : UInt8 := 0x03

def octetString : UInt8 := 0x04

def objectName : UInt8 := 0x06

def sequence : UInt8 := 0x30

/-- The tag of the field with this number of a sequence. -/
def field (n : UInt8) : UInt8 := 0xa0 + n

/-- The tag of the element that stands for the field with this number. -/
def bareField (n : UInt8) : UInt8 := 0x80 + n

/-! ## Writing -/

/-- A length in bytes: below 128 it is one byte; a larger one is a count and as many bytes, as few as
can be. -/
def lengthBytes (n : Nat) : Bytes :=
  if n < 0x80 then [n.toUInt8]
  else if n < 0x100 then 0x81 :: BigEndian.bytes 1 n
  else if n < 0x10000 then 0x82 :: BigEndian.bytes 2 n
  else if n < 0x1000000 then 0x83 :: BigEndian.bytes 3 n
  else 0x84 :: BigEndian.bytes 4 n

def Element.bytes (e : Element) : Bytes := e.tag :: lengthBytes e.content.length ++ e.content

def natural (n : Nat) : Element :=
  let bs := BigEndian.shortest n
  ⟨integer, if bs.head?.any (0x80 ≤ ·) then 0 :: bs else bs⟩

/-! ## Reading -/

def length? : Bytes → Option (Nat × Bytes)
  | [] => none
  | b :: rest =>
    if b < 0x80 then some (b.toNat, rest)
    else
      let count := b.toNat - 0x80
      let digits := rest.take count
      let n := BigEndian.value digits
      if 1 ≤ count ∧ count ≤ 4 ∧ digits.length = count ∧ 128 ≤ n ∧ Nat.pow 256 (count - 1) ≤ n then
        some (n, rest.drop count)
      else none

/-- The element at the front of the bytes, if its length is below the limit.  Tags of more than one
byte are not read. -/
def element? (limit : Nat) : Bytes → Option (Element × Bytes)
  | [] => none
  | tag :: rest =>
    if tag &&& 0x1f = 0x1f then none
    else
      match length? rest with
      | none => none
      | some (n, rest) =>
        if n < limit ∧ n ≤ rest.length then some (⟨tag, rest.take n⟩, rest.drop n) else none

/-- The elements that the bytes are; the count bounds them. -/
def elementsFrom? (limit : Nat) : Nat → Bytes → Option (List Element)
  | _, [] => some []
  | 0, _ :: _ => none
  | count + 1, bs => do
    let (e, rest) ← element? limit bs
    return e :: (← elementsFrom? limit count rest)

def elements? (limit : Nat) (bs : Bytes) : Option (List Element) :=
  elementsFrom? limit bs.length bs

def only? (limit : Nat) (bs : Bytes) : Option Element :=
  match elements? limit bs with
  | some [e] => some e
  | _ => none

def Element.parts? (e : Element) (limit : Nat) (tag : UInt8) : Option (List Element) :=
  if e.tag = tag then elements? limit e.content else none

/-- The elements of the one sequence that the bytes are. -/
def sequence? (limit : Nat) (bs : Bytes) : Option (List Element) := do
  (← only? limit bs).parts? limit sequence

/-- The bytes of an element with this tag that is a string of bits and fills them. -/
def Element.wholeBits? (e : Element) (tag : UInt8) : Option Bytes :=
  match e.content with
  | 0 :: bits => if e.tag = tag then some bits else none
  | _ => none

/-- The natural number that an element is, in its shortest form. -/
def Element.natural? (e : Element) : Option Nat :=
  if e = Der.natural (BigEndian.value e.content) then some (BigEndian.value e.content) else none

/-! ## Writing and reading -/

/-- A length below `2 ^ 16` is read as it was written. -/
theorem length?_lengthBytes {n : Nat} (h : n < 0x10000) (rest : Bytes) :
    length? (lengthBytes n ++ rest) = some (n, rest) := by
  have value1 : BigEndian.value (BigEndian.bytes 1 n) = n % 256 := by
    rw [BigEndian.value_bytes]
  have value2 : BigEndian.value (BigEndian.bytes 2 n) = n % 65536 := by
    rw [BigEndian.value_bytes]
  unfold lengthBytes
  split
  · have small : n.toUInt8 < 0x80 := by
      simp [UInt8.lt_iff_toNat_lt]; omega
    have back : n.toUInt8.toNat = n := by simp; omega
    simp [length?, small, back]
  · split
    · have take : (BigEndian.bytes 1 n ++ rest).take 1 = BigEndian.bytes 1 n := by
        rw [List.take_left' (BigEndian.length_bytes 1 n)]
      have drop : (BigEndian.bytes 1 n ++ rest).drop 1 = rest := by
        rw [List.drop_left' (BigEndian.length_bytes 1 n)]
      simp [length?, take, drop, BigEndian.length_bytes, value1]
      omega
    · have take : (BigEndian.bytes 2 n ++ rest).take 2 = BigEndian.bytes 2 n := by
        rw [List.take_left' (BigEndian.length_bytes 2 n)]
      have drop : (BigEndian.bytes 2 n ++ rest).drop 2 = rest := by
        rw [List.drop_left' (BigEndian.length_bytes 2 n)]
      simp [h, length?, take, drop, BigEndian.length_bytes, value2]
      omega

/-- **Reading undoes writing**, for an element within the limit. -/
theorem element?_bytes {limit : Nat} {e : Element} (tag : e.tag &&& 0x1f ≠ 0x1f)
    (size : e.content.length < limit) (small : limit ≤ 0x10000) (rest : Bytes) :
    element? limit (e.bytes ++ rest) = some (e, rest) := by
  simp [element?, Element.bytes, tag, length?_lengthBytes (by omega : e.content.length < 0x10000),
    size]

example : sequence? 8 [0x30, 0x05, 0x02, 0x01, 0x07, 0x04, 0x00] =
    some [⟨integer, [7]⟩, ⟨octetString, []⟩] := by decide +kernel

/-- A length that is too long or cut short is not read. -/
example : elements? 8 [0x04, 0x81, 0x01, 0x00] = none ∧ elements? 8 [0x04, 0x02, 0x00] = none ∧
    elements? 2 [0x04, 0x02, 0x00, 0x00] = none := by decide +kernel

/-- A natural number has one form. -/
example : (natural 128).bytes = [0x02, 0x02, 0x00, 0x80] ∧ (natural 0).bytes = [0x02, 0x01, 0x00] ∧
    Element.natural? ⟨integer, [0x00, 0x7f]⟩ = none := by decide +kernel

end DataRepository.Tls.Der
