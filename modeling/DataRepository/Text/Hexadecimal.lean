import DataRepository.Text.Utf8

/-!
# Hexadecimal

Bytes as lower-case hexadecimal digits, two a byte.  Reading takes what is written and nothing else.

- `decode?_encode`: reading what was written gives the bytes;
- `encode_of_decode?`: what can be read is what is written for the bytes read.
-/
namespace DataRepository.Text.Hexadecimal

/-- Two lower-case hexadecimal digits for a number below 256. -/
def pair (n : Nat) : List Char := [Nat.digitChar (n / 16), Nat.digitChar (n % 16)]

def encode (bs : Bytes) : List Char :=
  bs.flatMap fun b => pair b.toNat

def value? (c : Char) : Option Nat :=
  let n := c.toNat
  if 48 ≤ n ∧ n ≤ 57 then some (n - 48)
  else if 97 ≤ n ∧ n ≤ 102 then some (n - 87)
  else none

def decode? : List Char → Option Bytes
  | a :: b :: rest => do
    let a ← value? a
    let b ← value? b
    return (a * 16 + b).toUInt8 :: (← decode? rest)
  | [_] => none
  | [] => some []

theorem value?_digitChar {n : Nat} (h : n < 16) : value? (Nat.digitChar n) = some n := by
  have : ∀ m : Fin 16, value? (Nat.digitChar m) = some m.val := by decide
  exact this ⟨n, h⟩

theorem digitChar_of_value? {c : Char} {n : Nat} (h : value? c = some n) :
    n < 16 ∧ Nat.digitChar n = c := by
  have hc : c.toNat < 128 := by
    simp only [value?] at h
    split at h
    · omega
    · split at h
      · omega
      · cases h
  have hall : ∀ m : Fin 128, ∀ v, value? (Char.ofNat m) = some v →
      v < 16 ∧ Nat.digitChar v = Char.ofNat m := by decide +kernel
  have := hall ⟨c.toNat, hc⟩ n (by simpa [Char.ofNat_toNat] using h)
  simpa [Char.ofNat_toNat] using this

/-- **Reading what was written gives the bytes.** -/
theorem decode?_encode (bs : Bytes) : decode? (encode bs) = some bs := by
  induction bs with
  | nil => rfl
  | cons b bs ih =>
    have hb := b.toNat_lt
    have hencode : encode (b :: bs) =
        Nat.digitChar (b.toNat / 16) :: Nat.digitChar (b.toNat % 16) :: encode bs := rfl
    simp only [hencode, decode?, value?_digitChar (show b.toNat / 16 < 16 by omega),
      value?_digitChar (show b.toNat % 16 < 16 by omega), ih, Option.bind_eq_bind,
      Option.bind_some, Option.pure_def]
    rw [show b.toNat / 16 * 16 + b.toNat % 16 = b.toNat by omega]
    simp

/-- **What can be read is what is written for the bytes read.** -/
theorem encode_of_decode? {cs : List Char} {bs : Bytes} (h : decode? cs = some bs) :
    encode bs = cs := by
  fun_induction decode? cs generalizing bs with
  | case1 a b rest ih =>
    simp only [Option.bind_eq_bind, Option.bind_eq_some_iff, Option.pure_def,
      Option.some.injEq] at h
    obtain ⟨va, ha, vb, hb, rs, hr, rfl⟩ := h
    obtain ⟨la, rfl⟩ := digitChar_of_value? ha
    obtain ⟨lb, rfl⟩ := digitChar_of_value? hb
    rw [← ih hr]
    simp only [encode, List.flatMap_cons, pair, Nat.toUInt8, UInt8.toNat_ofNat']
    rw [show (va * 16 + vb) % 2 ^ 8 / 16 = va by omega,
      show (va * 16 + vb) % 2 ^ 8 % 16 = vb by omega]
    rfl
  | case2 => cases h
  | case3 => cases h; rfl

/-- A digit is a letter or a decimal digit. -/
theorem isAlphanum_of_mem_encode {bs : Bytes} {c : Char} (h : c ∈ encode bs) :
    c.isAlphanum := by
  have hall : ∀ m : Fin 16, (Nat.digitChar m).isAlphanum := by decide
  simp only [encode, List.mem_flatMap, pair] at h
  obtain ⟨b, -, h⟩ := h
  have hb := b.toNat_lt
  simp only [List.mem_cons, List.not_mem_nil, or_false] at h
  rcases h with rfl | rfl
  · exact hall ⟨b.toNat / 16, by omega⟩
  · exact hall ⟨b.toNat % 16, by omega⟩

end DataRepository.Text.Hexadecimal
