import DataRepository.Number.Double

/-!
# The fewest digits that read back

A positive binary64 value `m * 2 ^ q` stands for every real number that rounds to it.  Among the
decimal numbers in that interval, `shortest` picks one with the fewest digits, and of those the
nearest to the value; of two that are equally near, the even one.

The search goes through the grids of one, two, … seventeen digits.  On each grid only the two
neighbours of the value can be nearest, and the first grid on which one of them lies in the interval
wins.  All comparisons are between natural numbers.
-/
namespace DataRepository

/-- A decimal number `digits * 10 ^ power`. -/
structure Decimal where
  digits : Nat
  power : Int
deriving DecidableEq

namespace Shortest

/-- The factors `(p, r)` with `x * 2 ^ e / 10 ^ k = x * p / r`. -/
def factors (e k : Int) : Nat × Nat :=
  (Nat.pow 2 e.toNat * Nat.pow 10 (-k).toNat, Nat.pow 2 (-e).toNat * Nat.pow 10 k.toNat)

/-- Whether `10 ^ k ≤ m * 2 ^ e`. -/
def reaches (m : Nat) (e k : Int) : Bool :=
  let (p, r) := factors e k
  r ≤ m * p

/-- The exponent of the leading decimal digit of `m * 2 ^ e`: the binary logarithm gives it up to
one. -/
def leading (m : Nat) (e : Int) : Int :=
  let guess := ((m.log2 : Int) + e) * 30103 / 100000
  if reaches m e (guess + 1) then guess + 1 else if reaches m e guess then guess else guess - 1

/-- Four times the distance, in units of `2 ^ q`, from the value down to the end of its interval:
half a unit, and a quarter below a power of two. -/
def below (m : Nat) (q : Int) : Nat :=
  if m = 0x10000000000000 ∧ -1074 < q then 1 else 2

/-- The neighbour of the value on the grid of multiples of `10 ^ k` that reads back, if one does. -/
def onGrid? (m : Nat) (q k : Int) : Option Nat :=
  let (p, r) := factors (q - 2) k
  let value := 4 * m * p
  let lo := (4 * m - below m q) * p
  let hi := (4 * m + 2) * p
  let inside c := if m % 2 = 0 then lo ≤ c * r && c * r ≤ hi else lo < c * r && c * r < hi
  let down := value / r
  let up := down + 1
  match inside down, inside up with
  | true, true =>
    let toDown := value - down * r
    let toUp := up * r - value
    some (if toDown < toUp || (toDown == toUp && down % 2 == 0) then down else up)
  | true, false => some down
  | false, true => some up
  | false, false => none

/-- The first grid with a hit, from the grid of multiples of `10 ^ k` down to finer ones. -/
def search (m : Nat) (q : Int) : Nat → Int → Decimal
  | 0, k => ⟨m, k⟩
  | n + 1, k =>
    match onGrid? m q k with
    | some c => ⟨c, k⟩
    | none => search m q n (k - 1)

/-- Moves the zeros at the end of the digits into the power, one for each step. -/
def trimZeros : Nat → Decimal → Decimal
  | 0, d => d
  | n + 1, d =>
    if d.digits % 10 = 0 ∧ d.digits ≠ 0 then trimZeros n ⟨d.digits / 10, d.power + 1⟩ else d

end Shortest

open Shortest in
/-- The decimal with the fewest digits that reads back as this finite, non-zero magnitude. -/
def Double.shortest (d : Double) : Decimal :=
  trimZeros 20 (search d.significand d.exponent 17 (leading d.significand d.exponent))

def Decimal.digitChars (d : Decimal) : List Char := Nat.toDigits 10 d.digits

def Decimal.exponent (d : Decimal) : Int := d.power + d.digitChars.length - 1

/-- The digits around a decimal point, as many zeros as it takes, and nothing after the last
significant digit of a fraction.  An integral number is followed by `integral`. -/
def Decimal.positional (d : Decimal) (integral : List Char) : List Char :=
  let ds := d.digitChars
  if 0 ≤ d.power then ds ++ List.replicate d.power.toNat '0' ++ integral
  else
    let places := (-d.power).toNat
    if places < ds.length then
      ds.take (ds.length - places) ++ '.' :: ds.drop (ds.length - places)
    else '0' :: '.' :: List.replicate (places - ds.length) '0' ++ ds

/-- One digit before the point and a signed exponent. -/
def Decimal.scientific (d : Decimal) : List Char :=
  let e := d.exponent
  let mantissa := match d.digitChars with
    | [] => []
    | [c] => [c]
    | c :: rest => c :: '.' :: rest
  mantissa ++ 'e' :: (if e < 0 then '-' else '+') :: Nat.toDigits 10 e.natAbs

example : (Double.ofFloat 0.1).shortest = ⟨1, -1⟩ ∧ (Double.ofFloat 5e-324).shortest = ⟨5, -324⟩ ∧
    (Double.ofFloat 1e23).shortest = ⟨1, 23⟩ ∧
    (Double.ofFloat 9007199254740993).shortest = ⟨9007199254740992, 0⟩ := by decide +kernel

end DataRepository
