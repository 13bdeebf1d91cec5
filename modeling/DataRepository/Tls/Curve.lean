import DataRepository.Number.BigEndian
import DataRepository.Number.Modular

/-!
# The curves P-256 and P-384

Points of a curve `y² = x³ - 3x + b` over a prime field, and multiples of its base point: the public
key of a private key is the base point as many times.
-/
namespace DataRepository.Tls

/-- A point: the neutral one, or one with coordinates in the field. -/
inductive Point where
  | neutral
  | at (x y : Nat)
deriving DecidableEq

/-- A curve: its name as an element, the bytes in a coordinate, the number of elements of the field,
the number of multiples of the base point, the constant of the equation, and the base point. -/
structure Curve where
  name : Bytes
  width : Nat
  fieldSize : Nat
  order : Nat
  constant : Nat
  base : Point
deriving DecidableEq

namespace Curve

def twoParts (high low : Nat) : Nat := high * 0x1000000000000000000000000000000000000000000000000 + low

def p256 : Curve where
  name := [0x06, 0x08, 0x2a, 0x86, 0x48, 0xce, 0x3d, 0x03, 0x01, 0x07]
  width := 32
  fieldSize := 0xffffffff00000001000000000000000000000000ffffffffffffffffffffffff
  order := 0xffffffff00000000ffffffffffffffffbce6faada7179e84f3b9cac2fc632551
  constant := 0x5ac635d8aa3a93e7b3ebbd55769886bc651d06b0cc53b0f63bce3c3e27d2604b
  base := .at 0x6b17d1f2e12c4247f8bce6e563a440f277037d812deb33a0f4a13945d898c296
    0x4fe342e2fe1a7f9b8ee7eb4a7c0f9e162bce33576b315ececbb6406837bf51f5

def p384 : Curve where
  name := [0x06, 0x05, 0x2b, 0x81, 0x04, 0x00, 0x22]
  width := 48
  fieldSize := twoParts 0xffffffffffffffffffffffffffffffffffffffffffffffff
    0xfffffffffffffffeffffffff0000000000000000ffffffff
  order := twoParts 0xffffffffffffffffffffffffffffffffffffffffffffffff
    0xc7634d81f4372ddf581a0db248b0a77aecec196accc52973
  constant := twoParts 0xb3312fa7e23ee7e4988e056be3f82d19181d9c6efe814112
    0x0314088f5013875ac656398d8a2ed19d2a85c8edd3ec2aef
  base := .at (twoParts 0xaa87ca22be8b05378eb1c71ef320ad746e1d3b628ba79b98
      0x59f741e082542a385502f25dbf55296c3a545e3872760ab7)
    (twoParts 0x3617de4a96262c6f5d9e98bf9292dc29f8f41dbd289a147c
      0xe9da3113b5f0b8c00a60b1ce1d7e819d7a431d7c90ea0e5f)

def all : List Curve := [p256, p384]

def contains (c : Curve) : Point → Bool
  | .neutral => true
  | .at x y => (y * y + 3 * x) % c.fieldSize = (x * x * x + c.constant) % c.fieldSize

/-- The third point on the line with this slope through two points, mirrored. -/
def onLine (c : Curve) (slope x y x' : Nat) : Point :=
  let minus := Modular.minus c.fieldSize
  let third := minus (minus (slope * slope % c.fieldSize) x) x'
  .at third (minus (slope * minus x third % c.fieldSize) y)

def add (c : Curve) : Point → Point → Point
  | .neutral, q => q
  | p, .neutral => p
  | .at x y, .at x' y' =>
    let quotient (a b : Nat) := a * Modular.inverse c.fieldSize b % c.fieldSize
    if x = x' then
      if (y + y') % c.fieldSize = 0 then .neutral
      else c.onLine (quotient (3 * (x * x) + c.fieldSize - 3) (2 * y % c.fieldSize)) x y x'
    else c.onLine (quotient (Modular.minus c.fieldSize y' y) (Modular.minus c.fieldSize x' x)) x y x'

/-- A multiple of a point by a number of at most this many bits. -/
def times (c : Curve) (p : Point) : (bits k : Nat) → Point
  | 0, _ => .neutral
  | bits + 1, k =>
    let half := c.times p bits (k / 2)
    let double := c.add half half
    if k % 2 = 1 then c.add double p else double

/-- A point in bytes: a mark and both coordinates. -/
def pointBytes? (c : Curve) : Point → Option Bytes
  | .neutral => none
  | .at x y => some (0x04 :: BigEndian.bytes c.width x ++ BigEndian.bytes c.width y)

/-- The public key of a private key, which is a number below the order of the curve, but not zero. -/
def publicKey? (c : Curve) (secret : Nat) : Option Bytes :=
  if 0 < secret ∧ secret < c.order then c.pointBytes? (c.times c.base (8 * c.width) secret) else none

/-- A public key is a mark and two coordinates. -/
theorem length_publicKey? {c : Curve} {secret : Nat} {key : Bytes}
    (h : c.publicKey? secret = some key) : key.length = 2 * c.width + 1 := by
  unfold publicKey? at h
  split at h
  · unfold pointBytes? at h
    split at h
    · cases h
    · cases h
      simp [BigEndian.length_bytes]
      omega
  · cases h

/-- Twice the base point is on the curve. -/
example : all.all (fun c => c.contains (c.add c.base c.base)) = true := by decide +kernel

end Curve

end DataRepository.Tls
