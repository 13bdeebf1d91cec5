import DataRepository.Number.Shortest

/-!
# Numbers of a document

A number is a whole number that fits a signed or an unsigned word of sixty-four bits, or a double.
The two kinds never compare equal: `1` and `1.0` are different numbers.
-/
namespace DataRepository

/-- A whole number within the signed or the unsigned sixty-four-bit range. -/
structure Whole where
  value : Int
  least : -0x8000000000000000 ≤ value := by decide
  most : value < 0x10000000000000000 := by decide
deriving DecidableEq

/-- The whole number with this value, if it is in range. -/
def Whole.ofInt? (v : Int) : Option Whole :=
  if h : -0x8000000000000000 ≤ v ∧ v < 0x10000000000000000 then some ⟨v, h.1, h.2⟩ else none

/-- A natural number below `0x10000000000000000`. -/
def Whole.ofWord (w : UInt64) : Whole :=
  ⟨w.toNat, by omega, by have := w.toNat_lt; omega⟩

theorem Whole.ofInt?_value (w : Whole) : Whole.ofInt? w.value = some w := by
  rw [Whole.ofInt?, dif_pos ⟨w.least, w.most⟩]

inductive Number where
  | whole (n : Whole)
  | double (d : Double)
deriving DecidableEq

/-- The decimal digits, after a minus sign if the number is negative. -/
def Whole.chars (w : Whole) : List Char :=
  if w.value < 0 then '-' :: Nat.toDigits 10 w.value.natAbs else Nat.toDigits 10 w.value.natAbs

/-- The least and the greatest decimal exponent of a double that is written without an exponent. -/
def Double.plainExponents : Int × Int := (-5, 15)

/-- A double by the fewest digits that read back: positional for the exponents of
`plainExponents`, with `.0` if it is integral, and with an exponent otherwise. -/
def Double.chars (d : Double) : List Char :=
  let sign := if d.isNegative then ['-'] else []
  if d.isZero then sign ++ ['0', '.', '0']
  else
    let s := d.shortest
    if Double.plainExponents.1 ≤ s.exponent ∧ s.exponent ≤ Double.plainExponents.2 then
      sign ++ s.positional ['.', '0']
    else sign ++ s.scientific

def Number.chars : Number → List Char
  | .whole w => w.chars
  | .double d => d.chars

example : (Double.ofFloat 0.00001).chars = "0.00001".toList ∧
    (Double.ofFloat 1e21).chars = "1e+21".toList ∧
    (Double.ofFloat 18446744073709552000).chars = "1.8446744073709552e+19".toList ∧
    (Double.ofFloat (-404)).chars = "-404.0".toList := by decide +kernel

end DataRepository
