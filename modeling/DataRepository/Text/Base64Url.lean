import DataRepository.Text.Utf8

/-!
# Base64url

Bytes as characters of the URL-safe alphabet, six bits a character, without padding.  Reading is
strict: the bits that the last character has to spare must be zero, so each byte sequence has one
written form.

- `decode?_encode`: reading what was written gives the bytes;
- `encode_of_decode?`: what can be read is what is written for the bytes read.
-/
namespace DataRepository.Text.Base64Url

/-- The character of a group of six bits. -/
def digit (n : Nat) : Char :=
  if n < 26 then Char.ofNat (n + 65)
  else if n < 52 then Char.ofNat (n + 71)
  else if n < 62 then Char.ofNat (n - 4)
  else if n = 62 then '-'
  else '_'

/-- The six bits of a character of the alphabet. -/
def value? (c : Char) : Option Nat :=
  let n := c.toNat
  if 65 ≤ n ∧ n ≤ 90 then some (n - 65)
  else if 97 ≤ n ∧ n ≤ 122 then some (n - 71)
  else if 48 ≤ n ∧ n ≤ 57 then some (n + 4)
  else if n = 45 then some 62
  else if n = 95 then some 63
  else none

def encode : Bytes → List Char
  | a :: b :: c :: rest =>
    digit (a.toNat / 4) :: digit (a.toNat % 4 * 16 + b.toNat / 16) ::
      digit (b.toNat % 16 * 4 + c.toNat / 64) :: digit (c.toNat % 64) :: encode rest
  | [a, b] =>
    [digit (a.toNat / 4), digit (a.toNat % 4 * 16 + b.toNat / 16), digit (b.toNat % 16 * 4)]
  | [a] => [digit (a.toNat / 4), digit (a.toNat % 4 * 16)]
  | [] => []

def decode? : List Char → Option Bytes
  | a :: b :: c :: d :: rest => do
    let a ← value? a
    let b ← value? b
    let c ← value? c
    let d ← value? d
    let bytes ← decode? rest
    return (a * 4 + b / 16).toUInt8 :: (b % 16 * 16 + c / 4).toUInt8 ::
      (c % 4 * 64 + d).toUInt8 :: bytes
  | [a, b, c] => do
    let a ← value? a
    let b ← value? b
    let c ← value? c
    if c % 4 = 0 then some [(a * 4 + b / 16).toUInt8, (b % 16 * 16 + c / 4).toUInt8] else none
  | [a, b] => do
    let a ← value? a
    let b ← value? b
    if b % 16 = 0 then some [(a * 4 + b / 16).toUInt8] else none
  | [_] => none
  | [] => some []

/-! ## One written form -/

theorem value?_digit {n : Nat} (h : n < 64) : value? (digit n) = some n := by
  have : ∀ m : Fin 64, value? (digit m) = some m.val := by decide
  exact this ⟨n, h⟩

theorem value?_lt {c : Char} {n : Nat} (h : value? c = some n) : n < 64 := by
  simp only [value?] at h
  split at h
  · cases h; omega
  · split at h
    · cases h; omega
    · split at h
      · cases h; omega
      · split at h
        · cases h; omega
        · split at h
          · cases h; omega
          · cases h

theorem digit_of_value? {c : Char} {n : Nat} (h : value? c = some n) : digit n = c := by
  have hc : c.toNat < 128 := by
    simp only [value?] at h
    split at h
    · omega
    · split at h
      · omega
      · split at h
        · omega
        · split at h
          · omega
          · split at h
            · omega
            · cases h
  have hall : ∀ m : Fin 128, ∀ v, value? (Char.ofNat m) = some v → digit v = Char.ofNat m := by
    decide +kernel
  have := hall ⟨c.toNat, hc⟩ n (by simpa [Char.ofNat_toNat] using h)
  simpa [Char.ofNat_toNat] using this

private theorem toUInt8_eq (a : UInt8) {n : Nat} (h : n = a.toNat) : n.toUInt8 = a := by
  subst h; simp

/-- **Reading what was written gives the bytes.** -/
theorem decode?_encode (bs : Bytes) : decode? (encode bs) = some bs := by
  fun_induction encode bs with
  | case1 a b c rest ih =>
    have ha := a.toNat_lt
    have hb := b.toNat_lt
    have hc := c.toNat_lt
    simp only [decode?, value?_digit (show a.toNat / 4 < 64 by omega),
      value?_digit (show a.toNat % 4 * 16 + b.toNat / 16 < 64 by omega),
      value?_digit (show b.toNat % 16 * 4 + c.toNat / 64 < 64 by omega),
      value?_digit (show c.toNat % 64 < 64 by omega), ih]
    simp only [Option.bind_eq_bind, Option.bind_some, Option.pure_def, Option.some.injEq,
      List.cons.injEq, and_true]
    exact ⟨toUInt8_eq a (by omega), toUInt8_eq b (by omega), toUInt8_eq c (by omega)⟩
  | case2 a b =>
    have ha := a.toNat_lt
    have hb := b.toNat_lt
    simp only [decode?, value?_digit (show a.toNat / 4 < 64 by omega),
      value?_digit (show a.toNat % 4 * 16 + b.toNat / 16 < 64 by omega),
      value?_digit (show b.toNat % 16 * 4 < 64 by omega)]
    simp only [Option.bind_eq_bind, Option.bind_some,
      if_pos (show b.toNat % 16 * 4 % 4 = 0 by omega), Option.some.injEq, List.cons.injEq,
      and_true]
    exact ⟨toUInt8_eq a (by omega), toUInt8_eq b (by omega)⟩
  | case3 a =>
    have ha := a.toNat_lt
    simp only [decode?, value?_digit (show a.toNat / 4 < 64 by omega),
      value?_digit (show a.toNat % 4 * 16 < 64 by omega)]
    simp only [Option.bind_eq_bind, Option.bind_some,
      if_pos (show a.toNat % 4 * 16 % 16 = 0 by omega), Option.some.injEq, List.cons.injEq,
      and_true]
    exact toUInt8_eq a (by omega)
  | case4 => rfl

/-- **What can be read is what is written for the bytes read.** -/
theorem encode_of_decode? {cs : List Char} {bs : Bytes} (h : decode? cs = some bs) :
    encode bs = cs := by
  fun_induction decode? cs generalizing bs with
  | case1 a b c d rest ih =>
    simp only [Option.bind_eq_bind, Option.bind_eq_some_iff, Option.pure_def,
      Option.some.injEq] at h
    obtain ⟨va, ha, vb, hb, vc, hc, vd, hd, rs, hr, rfl⟩ := h
    have la := value?_lt ha
    have lb := value?_lt hb
    have lc := value?_lt hc
    have ld := value?_lt hd
    simp only [encode, Nat.toUInt8, UInt8.toNat_ofNat', ih hr]
    rw [show (va * 4 + vb / 16) % 2 ^ 8 / 4 = va by omega,
      show (va * 4 + vb / 16) % 2 ^ 8 % 4 * 16 + (vb % 16 * 16 + vc / 4) % 2 ^ 8 / 16 = vb by omega,
      show (vb % 16 * 16 + vc / 4) % 2 ^ 8 % 16 * 4 + (vc % 4 * 64 + vd) % 2 ^ 8 / 64 = vc by omega,
      show (vc % 4 * 64 + vd) % 2 ^ 8 % 64 = vd by omega,
      digit_of_value? ha, digit_of_value? hb, digit_of_value? hc, digit_of_value? hd]
  | case2 a b c =>
    simp only [Option.bind_eq_bind, Option.bind_eq_some_iff] at h
    obtain ⟨va, ha, vb, hb, vc, hc, h⟩ := h
    split at h
    · cases h
      have la := value?_lt ha
      have lb := value?_lt hb
      have lc := value?_lt hc
      simp only [encode, Nat.toUInt8, UInt8.toNat_ofNat']
      rw [show (va * 4 + vb / 16) % 2 ^ 8 / 4 = va by omega,
        show (va * 4 + vb / 16) % 2 ^ 8 % 4 * 16 + (vb % 16 * 16 + vc / 4) % 2 ^ 8 / 16 = vb by omega,
        show (vb % 16 * 16 + vc / 4) % 2 ^ 8 % 16 * 4 = vc by omega,
        digit_of_value? ha, digit_of_value? hb, digit_of_value? hc]
    · cases h
  | case3 a b =>
    simp only [Option.bind_eq_bind, Option.bind_eq_some_iff] at h
    obtain ⟨va, ha, vb, hb, h⟩ := h
    split at h
    · cases h
      have la := value?_lt ha
      have lb := value?_lt hb
      simp only [encode, Nat.toUInt8, UInt8.toNat_ofNat']
      rw [show (va * 4 + vb / 16) % 2 ^ 8 / 4 = va by omega,
        show (va * 4 + vb / 16) % 2 ^ 8 % 4 * 16 = vb by omega,
        digit_of_value? ha, digit_of_value? hb]
    · cases h
  | case4 => cases h
  | case5 => cases h; rfl

end DataRepository.Text.Base64Url
