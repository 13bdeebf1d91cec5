import DataRepository.Text.Utf8

/-!
# Numbers in bytes

A natural number in a fixed number of bytes, the highest first, and the number that bytes spell.

- `value_bytes`: reading undoes writing for a number that fits.
-/
namespace DataRepository.BigEndian

/-- The lowest `n` bytes of a number, the highest first. -/
def bytes : Nat → Nat → Bytes
  | 0, _ => []
  | n + 1, v => bytes n (v / 256) ++ [v.toUInt8]

/-- The number that bytes spell, the highest first. -/
def value (bs : Bytes) : Nat := bs.foldl (fun n b => n * 256 + b.toNat) 0

/-- The fewest bytes of a number; zero has one. -/
def shortest (v : Nat) : Bytes := bytes (v.log2 / 8 + 1) v

theorem length_bytes (n v : Nat) : (bytes n v).length = n := by
  induction n generalizing v with
  | zero => rfl
  | succ n ih => simp [bytes, ih]

/-- The value of the bytes of a number is the number, as far as the bytes reach. -/
theorem value_bytes (n v : Nat) : value (bytes n v) = v % Nat.pow 256 n := by
  induction n generalizing v with
  | zero => simp [bytes, value, Nat.mod_one]
  | succ n ih =>
    have step : value (bytes n (v / 256) ++ [v.toUInt8]) =
        value (bytes n (v / 256)) * 256 + v.toUInt8.toNat := by
      simp [value, List.foldl_append]
    rw [bytes, step, ih]
    have low : v.toUInt8.toNat = v % 256 := by simp [Nat.toUInt8]
    rw [low, Nat.pow_eq, Nat.pow_eq, Nat.pow_succ, Nat.mul_comm (256 ^ n), Nat.mod_mul]
    omega

end DataRepository.BigEndian
