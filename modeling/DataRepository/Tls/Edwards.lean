import DataRepository.Digest.Sha2
import DataRepository.Number.Modular

/-!
# The curve of Ed25519

Points of the curve `y² - x² = 1 + d x² y²` over a prime field.  A private key is a seed of thirty-two
bytes; its public key is a multiple of the base point by a number that the digest of the seed gives.
-/
namespace DataRepository.Tls.Edwards

def fieldSize : Nat := 0x7fffffffffffffffffffffffffffffffffffffffffffffffffffffffffffffed

/-- The constant `d` of the equation of the curve. -/
def constant : Nat := 0x52036cee2b6ffe738cc740797779e89800700a4d4141d8ab75eb4dca135978a3

structure Point where
  x : Nat
  y : Nat
deriving DecidableEq

/-- The point that changes none to which it is added. -/
def neutral : Point := ⟨0, 1⟩

def base : Point :=
  ⟨0x216936d3cd6e53fec0a4e231fdd6dc5c692cc7609525a7b2c9562d608f25d51a,
    0x6666666666666666666666666666666666666666666666666666666666666658⟩

def Point.isOnCurve (p : Point) : Bool :=
  p.y * p.y % fieldSize = (1 + p.x * p.x + constant * (p.x * p.x * (p.y * p.y))) % fieldSize

def Point.add (p q : Point) : Point :=
  let quotient (a b : Nat) := a * Modular.inverse fieldSize b % fieldSize
  let product := constant * (p.x * q.x * (p.y * q.y)) % fieldSize
  ⟨quotient (p.x * q.y + q.x * p.y) ((1 + product) % fieldSize),
    quotient (p.y * q.y + p.x * q.x) (Modular.minus fieldSize 1 product)⟩

def Point.times (p : Point) : (bits k : Nat) → Point
  | 0, _ => neutral
  | bits + 1, k =>
    let half := p.times bits (k / 2)
    let double := half.add half
    if k % 2 = 1 then double.add p else double

/-- A point in thirty-two bytes, the lowest first: `y`, and in the highest bit whether `x` is odd. -/
def Point.bytes (p : Point) : Bytes :=
  (BigEndian.bytes 32 (p.y + p.x % 2 * Nat.pow 2 255)).reverse

/-- The number that the first half of a digest gives: a multiple of eight with 255 bits. -/
def multiplier (digest : Bytes) : Nat :=
  let n := BigEndian.value (digest.take 32).reverse
  n % Nat.pow 2 254 / 8 * 8 + Nat.pow 2 254

def publicKey (seed : Bytes) : Bytes :=
  (base.times 255 (multiplier (Digest.sha512 seed))).bytes

/-- A public key has thirty-two bytes. -/
theorem length_publicKey (seed : Bytes) : (publicKey seed).length = 32 := by
  simp [publicKey, Point.bytes, BigEndian.length_bytes]

/-- Twice the base point is on the curve. -/
example : base.isOnCurve ∧ (base.add base).isOnCurve ∧ base.add base = base.times 2 2 := by
  decide +kernel

end DataRepository.Tls.Edwards
