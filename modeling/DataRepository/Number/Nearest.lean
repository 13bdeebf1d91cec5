import DataRepository.Number.Shortest
import DataRepository.Text.Numeral

/-!
# The double nearest to a numeral

Reading a decimal numeral as a double, rounded once; and, the other way, the plain decimal text of a
double and the natural number nearest to it.
-/
namespace DataRepository

namespace Double

/-- The double nearest to `digits * 10 ^ e`.  A value beyond `10 ^ 310` is infinite and a value below
`10 ^ (-330)` is zero, so that no greater power is ever computed. -/
def nearest (digits : Nat) (e : Int) : Double :=
  let size : Int := (Nat.toDigits 10 digits).length + e
  if digits = 0 ∨ size < -330 then ⟨0⟩
  else if 310 < size then ⟨0x7ff0000000000000⟩
  else ofFloat (Float.ofScientific digits (e < 0) e.natAbs)

def negated (d : Double) : Double := ⟨d.bits ^^^ 0x8000000000000000⟩

def infinity : Double := ⟨0x7ff0000000000000⟩

def undefined : Double := ⟨0x7ff8000000000000⟩

/-- The digits and the exponent of a numeral without a sign: digits with at most one point, which may
have digits on one side only, and an exponent. -/
def numeral? (cs : List Char) : Option (Nat × Int) := do
  let isDigit (c : Char) : Bool := '0' ≤ c ∧ c ≤ '9'
  let whole := cs.takeWhile isDigit
  let rest := cs.drop whole.length
  let (fraction, rest) := match rest with
    | '.' :: rest => (rest.takeWhile isDigit, rest.dropWhile isDigit)
    | _ => ([], rest)
  let digits ← Text.digits? (whole ++ fraction)
  let e ← match rest with
    | [] => some (0 : Int)
    | mark :: rest =>
      if mark = 'e' ∨ mark = 'E' then
        match rest with
        | '-' :: ds => (Text.digits? ds).map fun n => -(n : Int)
        | ds => (Text.unsigned? ds).map fun n => (n : Int)
      else none
  return (digits, e - fraction.length)

/-- The magnitude that a text without a sign names. -/
def magnitude? (cs : List Char) : Option Double :=
  let word := String.ofList (cs.map Char.toLower)
  if word = "inf" ∨ word = "infinity" then some infinity
  else if word = "nan" then some undefined
  else (numeral? cs).map fun (digits, e) => nearest digits e

/-- The double that a text names. -/
def ofText? (cs : List Char) : Option Double :=
  match cs with
  | '-' :: cs => (magnitude? cs).map negated
  | '+' :: cs => magnitude? cs
  | cs => magnitude? cs

/-- A double as text without an exponent; an integral one has no point. -/
def plainChars (d : Double) : List Char :=
  if d.isNaN then "NaN".toList
  else
    let sign := if d.isNegative then ['-'] else []
    if ! d.isFinite then sign ++ "inf".toList
    else if d.isZero then sign ++ ['0']
    else sign ++ d.shortest.positional []

/-- The natural number nearest to a double, a half rounded up, within `limit`; zero below zero and
when there is no number. -/
def roundedBelow (limit : Nat) (d : Double) : Nat :=
  if d.isNaN ∨ d.isNegative then 0
  else if ! d.isFinite then limit
  else
    let q := d.exponent
    let n := if 0 ≤ q then d.significand * Nat.pow 2 q.toNat
      else (2 * d.significand + Nat.pow 2 q.natAbs) / Nat.pow 2 (q.natAbs + 1)
    min n limit

example : (ofText? "1e3".toList).map plainChars = some "1000".toList ∧
    (ofText? "-0.0".toList).map plainChars = some "-0".toList ∧
    (ofText? "5.".toList).map plainChars = some "5".toList ∧
    (ofText? ".5".toList).map plainChars = some "0.5".toList ∧
    ofText? "1_0".toList = none ∧ ofText? ".".toList = none := by decide +kernel

example : (ofFloat 80.5).roundedBelow 100 = 81 ∧ (ofFloat 80.4).roundedBelow 100 = 80 ∧
    (ofFloat 1e30).roundedBelow 100 = 100 ∧ (ofFloat (-3)).roundedBelow 100 = 0 := by
  decide +kernel

end Double

end DataRepository
