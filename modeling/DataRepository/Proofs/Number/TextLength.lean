import DataRepository.Number
import Mathlib.Data.Rat.Cast.Order
import Mathlib.Tactic.Positivity
import Mathlib.Tactic.Ring
import Mathlib.Tactic.FieldSimp

/-! # How long the text of a double is

A double is written with at most seventeen digits before rounding up, so its text
is bounded, whatever its value. The bound rests on `leading`: the estimate from
the binary logarithm is never below the exponent of the leading digit. -/
namespace DataRepository

namespace Shortest

/-! ## The magnitude as a rational number -/

/-- The rational number `x * 2 ^ e`. -/
def magnitude (x : Nat) (e : Int) : ℚ := x * (2 : ℚ) ^ e

theorem two_zpow_split (e : Int) : (2 : ℚ) ^ e = (2 : ℚ) ^ e.toNat / (2 : ℚ) ^ (-e).toNat := by
  rw [eq_div_iff (by positivity), ← zpow_natCast, ← zpow_natCast, ← zpow_add₀ (by norm_num)]
  congr 1
  omega

theorem ten_zpow_split (k : Int) : (10 : ℚ) ^ k = (10 : ℚ) ^ k.toNat / (10 : ℚ) ^ (-k).toNat := by
  rw [eq_div_iff (by positivity), ← zpow_natCast, ← zpow_natCast, ← zpow_add₀ (by norm_num)]
  congr 1
  omega

theorem factors_pos (e k : Int) : 0 < (factors e k).2 := by
  simp only [factors]
  exact Nat.mul_pos (Nat.pow_pos (by decide)) (Nat.pow_pos (by decide))

/-- The factors are those of the power of two over the power of ten. -/
theorem magnitude_factors (x : Nat) (e k : Int) :
    (x : ℚ) * (factors e k).1 = magnitude x e / (10 : ℚ) ^ k * (factors e k).2 := by
  simp only [factors, magnitude, Nat.cast_mul, Nat.pow_eq, Nat.cast_pow, Nat.cast_ofNat]
  rw [two_zpow_split, ten_zpow_split]
  field_simp

theorem reaches_eq_false {m : Nat} {e k : Int} :
    reaches m e k = false ↔ magnitude m e < (10 : ℚ) ^ k := by
  have hr : (0 : ℚ) < (factors e k).2 := by exact_mod_cast factors_pos e k
  have hten : (0 : ℚ) < (10 : ℚ) ^ k := zpow_pos (by norm_num) k
  rw [reaches, decide_eq_false_iff_not, Nat.not_le]
  rw [← Nat.cast_lt (α := ℚ), Nat.cast_mul, magnitude_factors, ← div_lt_one hten]
  constructor
  · intro h
    by_contra hge
    exact absurd h (not_lt.mpr (le_mul_of_one_le_left hr.le (not_lt.mp hge)))
  · intro h
    exact mul_lt_of_lt_one_left hr h

/-! ## The leading digit -/

/-- The decimal exponent that the binary logarithm suggests. -/
def suggested (l : Int) : Int := l * 30103 / 100000

/-- In the range of doubles the suggestion is never too small by two. -/
theorem suggested_checked : ∀ n : Nat, n < 2101 →
    2 ^ ((n : Int) - 1074).toNat * 10 ^ (-(suggested (n - 1075) + 2)).toNat ≤
      2 ^ (-((n : Int) - 1074)).toNat * 10 ^ (suggested (n - 1075) + 2).toNat := by
  decide +kernel

theorem two_zpow_le {l : Int} (hlo : -1075 ≤ l) (hhi : l ≤ 1025) :
    (2 : ℚ) ^ (l + 1) ≤ (10 : ℚ) ^ (suggested l + 2) := by
  have hcheck := suggested_checked (l + 1075).toNat (by omega)
  rw [show (((l + 1075).toNat : Nat) : Int) = l + 1075 by omega,
    show l + 1075 - 1074 = l + 1 by omega, show l + 1075 - 1075 = l by omega] at hcheck
  rw [two_zpow_split, ten_zpow_split, div_le_div_iff₀ (by positivity) (by positivity), mul_comm (10 ^ _)]
  exact_mod_cast hcheck

theorem magnitude_lt_two_zpow (m : Nat) (e : Int) :
    magnitude m e < (2 : ℚ) ^ ((m.log2 : Int) + e + 1) := by
  have hlog : (m : ℚ) < (2 : ℚ) ^ (m.log2 + 1) := by exact_mod_cast Nat.lt_log2_self (n := m)
  rw [magnitude, show (m.log2 : Int) + e + 1 = ((m.log2 + 1 : Nat) : Int) + e by push_cast; ring,
    zpow_add₀ (by norm_num), zpow_natCast]
  exact mul_lt_mul_of_pos_right hlog (zpow_pos (by norm_num) e)

/-- **No double has more digits before the point than its leading exponent says.** -/
theorem magnitude_lt_leading {m : Nat} {e : Int} (hlo : -1075 ≤ (m.log2 : Int) + e)
    (hhi : (m.log2 : Int) + e ≤ 1025) : magnitude m e < (10 : ℚ) ^ (leading m e + 1) := by
  have hguess : magnitude m e < (10 : ℚ) ^ (suggested (m.log2 + e) + 2) :=
    (magnitude_lt_two_zpow m e).trans_le (two_zpow_le hlo hhi)
  unfold leading
  dsimp only
  rw [← suggested]
  split
  · rw [show suggested (m.log2 + e) + 1 + 1 = suggested (m.log2 + e) + 2 by omega]
    exact hguess
  · rename_i habove
    split
    · exact reaches_eq_false.mp (by simpa using habove)
    · rename_i hbelow
      rw [Int.sub_add_cancel]
      exact reaches_eq_false.mp (by simpa using hbelow)

theorem leading_bounds {m : Nat} {e : Int} (hlo : -1075 ≤ (m.log2 : Int) + e)
    (hhi : (m.log2 : Int) + e ≤ 1025) : -325 ≤ leading m e ∧ leading m e ≤ 309 := by
  unfold leading
  dsimp only
  split
  · omega
  · split <;> omega

/-! ## The digits that are found -/

/-- The digits found on a grid are those of the magnitude or one more. -/
theorem le_of_onGrid? {m : Nat} {q k : Int} {c : Nat} (h : onGrid? m q k = some c) :
    c ≤ 4 * m * (factors (q - 2) k).1 / (factors (q - 2) k).2 + 1 := by
  simp only [onGrid?] at h
  split at h
  · cases h
    split <;> omega
  · cases h
    omega
  · cases h
    omega
  · cases h

theorem le_ten_pow_of_onGrid? {m : Nat} {q k : Int} {c n : Nat} (h : onGrid? m q k = some c)
    (hm : magnitude m q < (10 : ℚ) ^ (k + n)) : c ≤ 10 ^ n := by
  have hr := factors_pos (q - 2) k
  have hten : (0 : ℚ) < (10 : ℚ) ^ k := zpow_pos (by norm_num) k
  have hquarter : magnitude (4 * m) (q - 2) = magnitude m q := by
    simp only [magnitude, Nat.cast_mul, Nat.cast_ofNat]
    rw [zpow_sub₀ (by norm_num)]
    ring
  have hlt : 4 * m * (factors (q - 2) k).1 < 10 ^ n * (factors (q - 2) k).2 := by
    have hr' : (0 : ℚ) < (factors (q - 2) k).2 := by exact_mod_cast hr
    rw [← Nat.cast_lt (α := ℚ), Nat.cast_mul, magnitude_factors, hquarter, Nat.cast_mul, Nat.cast_pow,
      Nat.cast_ofNat]
    refine mul_lt_mul_of_pos_right ?_ hr'
    rw [div_lt_iff₀ hten, ← zpow_natCast, ← zpow_add₀ (by norm_num), add_comm]
    exact hm
  exact Nat.le_trans (le_of_onGrid? h) (Nat.div_lt_of_lt_mul (by rwa [mul_comm (10 ^ n)] at hlt))

/-- The search ends in at most eighteen digits, at most seventeen places below the leading one. -/
theorem search_bounds {m : Nat} {q : Int} (hm : m < 10 ^ 17) {l : Int}
    (hl : magnitude m q < (10 : ℚ) ^ (l + 1)) (count : Nat) (hcount : count ≤ 17) :
    (search m q count (l + count - 17)).digits ≤ 10 ^ 17 ∧
      l - 17 ≤ (search m q count (l + count - 17)).power ∧
      (search m q count (l + count - 17)).power ≤ l := by
  -- With `count` grids still to try, the next one has `18 - count` digits.
  induction count with
  | zero =>
    simp only [search]
    omega
  | succ count ih =>
    have ih := ih (by omega)
    rw [show l + ((count + 1 : Nat) : Int) - 17 = l + count - 17 + 1 by omega]
    simp only [search]
    split
    · rename_i c hc
      have hle : c ≤ 10 ^ (17 - count) := by
        refine le_ten_pow_of_onGrid? hc ?_
        rwa [show l + count - 17 + 1 + ((17 - count : Nat) : Int) = l + 1 by omega]
      have hpow : 10 ^ (17 - count) ≤ 10 ^ 17 := Nat.pow_le_pow_right (by decide) (by omega)
      refine ⟨Nat.le_trans hle hpow, ?_, ?_⟩ <;> dsimp only <;> omega
    · rw [Int.add_sub_cancel]
      exact ih

theorem trimZeros_bounds (n : Nat) (d : Decimal) :
    (trimZeros n d).digits ≤ d.digits ∧ d.power ≤ (trimZeros n d).power ∧
      (trimZeros n d).power ≤ d.power + n := by
  induction n generalizing d with
  | zero => simp [trimZeros]
  | succ n ih =>
    unfold trimZeros
    split
    · obtain ⟨hdigits, hlo, hhi⟩ := ih ⟨d.digits / 10, d.power + 1⟩
      dsimp only at hdigits hlo hhi
      omega
    · omega

end Shortest

open Shortest in
theorem Double.shortest_bounds (d : Double) :
    d.shortest.digits ≤ 10 ^ 17 ∧ -342 ≤ d.shortest.power ∧ d.shortest.power ≤ 329 := by
  have hsignificand : d.significand < 2 ^ 53 := by
    have hfraction : d.fractionField < 2 ^ 52 := Nat.mod_lt _ (by decide)
    unfold Double.significand
    split <;> omega
  have hexponent : -1074 ≤ d.exponent ∧ d.exponent ≤ 972 := by
    have hfield : d.exponentField < 2048 := Nat.mod_lt _ (by decide)
    unfold Double.exponent
    omega
  have hlog : d.significand.log2 ≤ 52 := by
    by_cases hzero : d.significand = 0
    · simp [hzero]
    · exact Nat.le_of_lt_succ ((Nat.log2_lt hzero).mpr hsignificand)
  obtain ⟨hlo, hhi⟩ := leading_bounds (m := d.significand) (e := d.exponent) (by omega) (by omega)
  have hmagnitude := magnitude_lt_leading (m := d.significand) (e := d.exponent) (by omega) (by omega)
  have hsearch := search_bounds (by omega) hmagnitude 17 (Nat.le_refl _)
  have htrim := trimZeros_bounds 20
    (search d.significand d.exponent 17 (leading d.significand d.exponent))
  simp only [Nat.cast_ofNat, Int.add_sub_cancel] at hsearch
  unfold Double.shortest
  omega

/-! ## The text -/

theorem Decimal.length_digitChars_le {d : Decimal} (h : d.digits ≤ 10 ^ 17) :
    d.digitChars.length ≤ 18 ∧ 0 < d.digitChars.length :=
  ⟨(Nat.length_toDigits_le_iff (by decide) (by decide)).mpr (by omega), Nat.length_toDigits_pos⟩

theorem Decimal.length_positional_le {d : Decimal} {integral : List Char} (h : d.digitChars.length ≤ 18)
    (hplain : -5 ≤ d.exponent ∧ d.exponent ≤ 15) (hintegral : integral.length ≤ 2) :
    (d.positional integral).length ≤ 24 := by
  unfold Decimal.exponent at hplain
  unfold Decimal.positional
  dsimp only
  split
  · simp only [List.length_append, List.length_replicate]
    omega
  · split
    · simp only [List.length_append, List.length_cons, List.length_take, List.length_drop]
      omega
    · simp only [List.length_append, List.length_cons, List.length_replicate]
      omega

theorem Decimal.length_scientific_le {d : Decimal} (h : d.digitChars.length ≤ 18)
    (hpos : 0 < d.digitChars.length) (hlo : -342 ≤ d.power) (hhi : d.power ≤ 329) :
    d.scientific.length ≤ 24 := by
  have hexponent : (Nat.toDigits 10 d.exponent.natAbs).length ≤ 3 := by
    rw [Nat.length_toDigits_le_iff (by decide) (by decide)]
    unfold Decimal.exponent
    omega
  unfold Decimal.scientific
  dsimp only
  rw [List.length_append, List.length_cons, List.length_cons]
  split
  · simp only [List.length_nil]
    omega
  · simp only [List.length_cons, List.length_nil]
    omega
  · rename_i c rest _ hchars
    rw [hchars] at h
    simp only [List.length_cons] at h ⊢
    omega

/-- **No double is written with more than twenty-five characters.** -/
theorem Double.length_chars_le (d : Double) : d.chars.length ≤ 25 := by
  obtain ⟨hdigits, hlo, hhi⟩ := d.shortest_bounds
  obtain ⟨hlength, hpos⟩ := Decimal.length_digitChars_le hdigits
  have hsign : (if d.isNegative then ['-'] else []).length ≤ 1 := by split <;> simp
  unfold Double.chars
  dsimp only
  split
  · simp only [List.length_append, List.length_cons, List.length_nil]
    omega
  · split
    · rename_i hplain
      rw [List.length_append]
      exact Nat.add_le_add hsign (Decimal.length_positional_le hlength hplain (by decide))
    · rw [List.length_append]
      exact Nat.add_le_add hsign (Decimal.length_scientific_le hlength hpos hlo hhi)

end DataRepository
