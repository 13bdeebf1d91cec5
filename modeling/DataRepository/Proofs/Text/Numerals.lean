import DataRepository.Text.Numeral
import Mathlib.Data.List.Basic

/-! # Numerals and their numbers

The digits that are written for a number are read back as the number. The other way, a
numeral that is read is the one that is written for its number, unless it starts with a
needless zero. -/
namespace DataRepository.Text

/-- A number does not start with zero, unless it is zero. -/
theorem exists_toDigits_eq {n : Nat} (h : 0 < n) :
    ∃ c cs, Nat.toDigits 10 n = c :: cs ∧ c.toNat - 48 ≠ 0 := by
  induction n using Nat.strongRecOn with
  | ind n ih =>
    rcases Nat.lt_or_ge n 10 with hlt | hge
    · have hdigit : ∀ m < 10, 0 < m → (Nat.digitChar m).toNat - 48 ≠ 0 := by decide
      exact ⟨_, [], Nat.toDigits_of_lt_base hlt, hdigit n hlt h⟩
    · obtain ⟨c, cs, hcs, hc⟩ := ih (n / 10) (by omega) (by omega)
      exact ⟨c, _, by rw [Nat.toDigits_of_base_le (by decide) hge, hcs]; rfl, hc⟩

theorem digitValue?_eq_some {c : Char} {d : Nat} (h : digitValue? c = some d) :
    d < 10 ∧ Nat.digitChar d = c := by
  unfold digitValue? at h
  split at h
  · rename_i hc
    have hrange : 48 ≤ c.toNat ∧ c.toNat ≤ 57 := hc
    obtain rfl : c.toNat - 48 = d := Option.some.inj h
    refine ⟨by omega, Char.toNat_inj.mp ?_⟩
    rw [Nat.toNat_digitChar_of_lt_ten (by omega)]
    omega
  · cases h

/-- A numeral has a digit in front. -/
theorem exists_digit_of_digits? {cs : List Char} {n : Nat} (h : digits? cs = some n) :
    ∃ c rest, cs = c :: rest ∧ (digitValue? c).isSome = true := by
  cases cs with
  | nil => cases h
  | cons c rest =>
    obtain ⟨d, hd, -⟩ := Option.bind_eq_some_iff.mp h
    exact ⟨c, rest, rfl, Option.isSome_of_eq_some hd⟩

theorem ne_sign_of_digit {c : Char} (h : (digitValue? c).isSome = true) : c ≠ '+' ∧ c ≠ '-' := by
  constructor <;> rintro rfl <;> exact absurd h (by decide)

theorem unsigned?_of_ne {c : Char} (h : c ≠ '+') (rest : List Char) :
    unsigned? (c :: rest) = digits? (c :: rest) := by
  unfold unsigned?
  split
  · rename_i hcs
    exact absurd (List.cons.inj hcs).1 h
  · rfl

/-- Digits that are read after a number that is not zero are written after it. -/
theorem toDigits_append_of_digitsFrom? {cs : List Char} {n m : Nat} (hn : 0 < n)
    (h : digitsFrom? n cs = some m) : Nat.toDigits 10 n ++ cs = Nat.toDigits 10 m := by
  induction cs generalizing n with
  | nil =>
    obtain rfl : n = m := Option.some.inj h
    exact List.append_nil _
  | cons c cs ih =>
    obtain ⟨d, hd, hrest⟩ := Option.bind_eq_some_iff.mp h
    obtain ⟨hten, hchar⟩ := digitValue?_eq_some hd
    have hmore : Nat.toDigits 10 n ++ [c] = Nat.toDigits 10 (n * 10 + d) := by
      rw [← hchar, ← Nat.toDigits_of_lt_base (b := 10) hten,
        Nat.toDigits_append_toDigits (by decide) hn hten, Nat.mul_comm]
    rw [← ih (by omega) hrest, ← hmore, List.append_assoc, List.singleton_append]

/-- **A numeral is the one that is written for its number, unless it starts with a needless zero.** -/
theorem toDigits_eq_iff {cs : List Char} {n : Nat} (h : digits? cs = some n) :
    Nat.toDigits 10 n = cs ↔ cs = ['0'] ∨ cs.head? ≠ some '0' := by
  unfold digits? at h
  cases cs with
  | nil => cases h
  | cons c cs =>
    obtain ⟨d, hd, hrest⟩ := Option.bind_eq_some_iff.mp h
    obtain ⟨hten, hchar⟩ := digitValue?_eq_some hd
    rw [Nat.zero_mul, Nat.zero_add] at hrest
    rcases Nat.eq_zero_or_pos d with rfl | hpos
    · obtain rfl : '0' = c := hchar
      constructor
      · intro hdigits
        rcases Nat.eq_zero_or_pos n with rfl | hn
        · exact .inl hdigits.symm
        · obtain ⟨c, cs', hcs, hc⟩ := exists_toDigits_eq hn
          rw [hcs] at hdigits
          cases hdigits
          exact absurd rfl hc
      · rintro (hzero | hfirst)
        · cases hzero
          obtain rfl : 0 = n := Option.some.inj hrest
          rfl
        · exact absurd rfl hfirst
    · have hdigits : Nat.toDigits 10 n = c :: cs := by
        rw [← toDigits_append_of_digitsFrom? hpos hrest, Nat.toDigits_of_lt_base hten, hchar]
        rfl
      have hfirst : c ≠ '0' := by
        have hall : ∀ d < 10, 0 < d → Nat.digitChar d ≠ '0' := by decide
        exact hchar ▸ hall d hten hpos
      exact iff_of_true hdigits (.inr fun h => hfirst (Option.some.inj h))

end DataRepository.Text
