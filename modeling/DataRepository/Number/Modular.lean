/-!
# Arithmetic with a modulus

Powers and inverses of numbers less multiples of a modulus.

- `power_eq`: a power is what is left of the power without a modulus.
-/
namespace DataRepository.Modular

/-- What is left of a power; the exponent has at most this many bits. -/
def power (modulus a : Nat) : (bits exponent : Nat) → Nat
  | 0, _ => 1 % modulus
  | bits + 1, exponent =>
    let half := power modulus a bits (exponent / 2)
    let square := half * half % modulus
    if exponent % 2 = 1 then square * a % modulus else square

/-- The inverse of a number that is no multiple of the modulus, which is a prime number. -/
def inverse (prime a : Nat) : Nat := power prime a (prime.log2 + 1) (prime - 2)

def minus (modulus a b : Nat) : Nat := (a + modulus - b) % modulus

theorem power_eq (modulus a : Nat) {bits exponent : Nat} (h : exponent < Nat.pow 2 bits) :
    power modulus a bits exponent = Nat.pow a exponent % modulus := by
  simp only [Nat.pow_eq] at h ⊢
  induction bits generalizing exponent with
  | zero =>
    have : exponent = 0 := by simpa using h
    simp [power, this]
  | succ bits ih =>
    have half : exponent / 2 < 2 ^ bits := by rw [Nat.pow_succ] at h; omega
    simp only [power, ih half]
    have square : a ^ (exponent / 2) % modulus * (a ^ (exponent / 2) % modulus) % modulus =
        a ^ (2 * (exponent / 2)) % modulus := by
      rw [← Nat.mul_mod, ← Nat.pow_add, Nat.two_mul]
    rw [square]
    split
    · rename_i odd
      rw [Nat.mod_mul_mod, ← Nat.pow_succ]
      congr 2
      omega
    · congr 2
      omega

end DataRepository.Modular
