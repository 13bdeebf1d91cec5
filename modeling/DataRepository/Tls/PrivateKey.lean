import DataRepository.Tls.Curve
import DataRepository.Tls.Der
import DataRepository.Tls.Edwards
import DataRepository.Tls.Rsa

/-!
# Private keys

A private key comes either alone or in an envelope that names its algorithm.  Where the public key
comes with it, that must be the one that belongs to it.
-/
namespace DataRepository.Tls

inductive PrivateKey where
  | elliptic (curve : Curve) (secret : Nat)
  | edwards (seed : Bytes)
  | rsa (numbers : Rsa.Numbers)
deriving DecidableEq

namespace PrivateKey

/-- What lengths stay below in a key. -/
def limit : Nat := 0x10000

/-- The algorithm of keys on a curve: its name, and the name of the curve. -/
def ellipticAlgorithm (c : Curve) : Bytes :=
  [0x06, 0x07, 0x2a, 0x86, 0x48, 0xce, 0x3d, 0x02, 0x01] ++ c.name

/-- The algorithm of keys that are seeds. -/
def edwardsAlgorithm : Bytes := [0x06, 0x03, 0x2b, 0x65, 0x70]

/-- Reads a key on a curve that stands alone: a version, the number, the name of the curve, which may
be left out, and the public key. -/
def ofElliptic? (c : Curve) (der : Bytes) : Option PrivateKey := do
  let (secret, tail) ←
    match ← Der.sequence? limit der with
    | ⟨0x02, [1]⟩ :: ⟨0x04, secret⟩ :: tail => some (secret, tail)
    | _ => none
  let publicPart ←
    match tail with
    | [⟨0xa0, name⟩, ⟨0xa1, key⟩] => if name = c.name then some key else none
    | [⟨0xa1, key⟩] => some key
    | _ => none
  let key ← (← Der.only? limit publicPart).wholeBits? Der.bitString
  let number := BigEndian.value secret
  if secret.length = c.width ∧ c.publicKey? number = some key then return .elliptic c number else none

/-- Reads a key that is a seed, with its public key if there is one. -/
def ofEdwards? (der : Bytes) (key : Option Bytes) : Option PrivateKey := do
  match ← Der.only? limit der with
  | ⟨0x04, seed⟩ =>
    if seed.length = 32 ∧ key.all (· = Edwards.publicKey seed) then return .edwards seed else none
  | _ => none

/-- Reads an RSA key that stands alone. -/
def ofRsa? (der : Bytes) : Option PrivateKey := (Rsa.Numbers.ofBytes? der).map .rsa

/-- The parts of an envelope: its version, the algorithm, the key, and what comes after it apart from
attributes. -/
def envelope? (der : Bytes) : Option (UInt8 × Bytes × Bytes × List Der.Element) := do
  match ← Der.sequence? limit der with
  | ⟨0x02, [version]⟩ :: ⟨0x30, name⟩ :: ⟨0x04, key⟩ :: tail =>
    match tail with
    | ⟨0xa0, _⟩ :: rest => return (version, name, key, rest)
    | rest => return (version, name, key, rest)
  | _ => none

/-- The public key after a key in an envelope: a string of bits that stands for the field, or in
it. -/
def enclosedKey? (e : Der.Element) : Option Bytes :=
  if e.tag = Der.field 1 then (Der.only? limit e.content).bind (·.wholeBits? Der.bitString)
  else e.wholeBits? (Der.bareField 1)

/-- Reads a key in its envelope.  The public key comes after a seed in the second version, and with no
other key. -/
def ofEnvelope? (der : Bytes) : Option PrivateKey := do
  let (version, name, key, tail) ← envelope? der
  match version, tail with
  | 0, [] =>
    if name = Rsa.algorithm then ofRsa? key
    else if name = edwardsAlgorithm then ofEdwards? key none
    else ofElliptic? (← Curve.all.find? (name = ellipticAlgorithm ·)) key
  | 1, [e] => if name = edwardsAlgorithm then ofEdwards? key (some (← enclosedKey? e)) else none
  | _, _ => none

/-- Reads a key on one of the curves that stands alone. -/
def ofBare? (der : Bytes) : Option PrivateKey := Curve.all.findSome? (ofElliptic? · der)

/-- The description of the public key in a certificate for this key: an algorithm and a string of
bits. -/
def publicInfo : PrivateKey → Bytes
  | elliptic c secret => info (ellipticAlgorithm c) ((c.publicKey? secret).getD [])
  | edwards seed => info edwardsAlgorithm (Edwards.publicKey seed)
  | rsa numbers => info Rsa.algorithm numbers.publicKey.bytes
where
  /-- The description of a key for an algorithm. -/
  info (name key : Bytes) : Bytes :=
    Der.Element.bytes ⟨Der.sequence, name⟩ ++ Der.Element.bytes ⟨Der.bitString, 0 :: key⟩

end PrivateKey

end DataRepository.Tls
