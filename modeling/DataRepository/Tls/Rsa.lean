import DataRepository.Tls.Der

/-!
# RSA keys

A private key is a modulus, which is the product of two primes, a public and a private exponent, and
what shortens the use of the key.  A key is read if its numbers fit together; whether the factors are
prime and the exponents undo each other is left to whoever made it.
-/
namespace DataRepository.Tls.Rsa

structure Numbers where
  modulus : Nat
  publicExponent : Nat
  privateExponent : Nat
  firstPrime : Nat
  secondPrime : Nat
  firstExponent : Nat
  secondExponent : Nat
  coefficient : Nat
deriving DecidableEq

structure PublicKey where
  modulus : Nat
  exponent : Nat
deriving DecidableEq

/-- The name of the algorithm and, after it, that it has no parameters. -/
def algorithm : Bytes :=
  [0x06, 0x09, 0x2a, 0x86, 0x48, 0x86, 0xf7, 0x0d, 0x01, 0x01, 0x01, 0x05, 0x00]

def bits (n : Nat) : Nat := if n = 0 then 0 else n.log2 + 1

namespace Numbers

def halfBits (k : Numbers) : Nat := (bits k.modulus + 1) / 2

/-- Whether the public key is in range: a modulus of 256 to 512 bytes, and an odd exponent of 17 to 33
bits. -/
def isPublicSound (k : Numbers) : Bool :=
  k.modulus % 2 = 1 ∧ 256 ≤ (bits k.modulus + 7) / 8 ∧ bits k.modulus ≤ 4096 ∧
    k.publicExponent % 2 = 1 ∧ 0x10001 ≤ k.publicExponent ∧ k.publicExponent < 0x200000000

/-- Whether a number may be a factor of the modulus: it is odd and half as long. -/
def isFactor (k : Numbers) (p : Nat) : Bool :=
  p % 2 = 1 ∧ bits p = k.halfBits ∧ bits p % 512 = 0

/-- Whether a number may be the private exponent for a factor. -/
def isPartOf (exponent factor : Nat) : Bool := exponent % 2 = 1 ∧ exponent < factor

/-- Whether the numbers fit together. -/
def isSound (k : Numbers) : Bool :=
  k.isPublicSound && k.isFactor k.firstPrime && k.isFactor k.secondPrime &&
    k.firstPrime * k.secondPrime % k.modulus = 0 &&
    k.privateExponent % 2 = 1 && k.halfBits < bits k.privateExponent &&
    k.privateExponent < k.modulus &&
    k.coefficient < k.firstPrime && k.coefficient * k.secondPrime % k.firstPrime = 1 &&
    isPartOf k.firstExponent k.firstPrime && isPartOf k.secondExponent k.secondPrime

end Numbers

/-- Reads a private key: a version and its numbers. -/
def Numbers.ofBytes? (der : Bytes) : Option Numbers := do
  match ← (← Der.sequence? 0x10000 der).mapM (·.natural?) with
  | [0, n, e, d, p, q, dp, dq, qi] =>
    let k : Numbers := ⟨n, e, d, p, q, dp, dq, qi⟩
    if k.isSound then some k else none
  | _ => none

/-- Only numbers that fit together are read. -/
theorem Numbers.isSound_of_ofBytes? {der : Bytes} {k : Numbers} (h : ofBytes? der = some k) :
    k.isSound = true := by
  simp only [ofBytes?, Option.bind_eq_bind, Option.bind_eq_some_iff] at h
  obtain ⟨_, -, _, -, h⟩ := h
  split at h
  · split at h
    · rename_i sound
      cases h
      exact sound
    · cases h
  · cases h

/-- The public key that belongs to a private key. -/
def Numbers.publicKey (k : Numbers) : PublicKey := ⟨k.modulus, k.publicExponent⟩

def PublicKey.bytes (k : PublicKey) : Bytes :=
  Der.Element.bytes
    ⟨Der.sequence, (Der.natural k.modulus).bytes ++ (Der.natural k.exponent).bytes⟩

end DataRepository.Tls.Rsa
