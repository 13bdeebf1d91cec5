/-!
# Numerals

Decimal numerals of natural numbers, as the characters of a text.
-/
namespace DataRepository.Text

def digitValue? (c : Char) : Option Nat :=
  if '0' ≤ c ∧ c ≤ '9' then some (c.toNat - '0'.toNat) else none

/-- The number spelled by the digits after those that spell `n`. -/
def digitsFrom? (n : Nat) : List Char → Option Nat
  | [] => some n
  | c :: rest => digitValue? c >>= fun d => digitsFrom? (n * 10 + d) rest

/-- The number spelled by one or more digits. -/
def digits? (cs : List Char) : Option Nat :=
  if cs.isEmpty then none else digitsFrom? 0 cs

/-- The number spelled by one or more digits, with a plus sign before them or not. -/
def unsigned? : List Char → Option Nat
  | '+' :: cs => digits? cs
  | cs => digits? cs

/-- The number below `bound` spelled by digits, with a plus sign before them or not. -/
def unsignedBelow? (bound : Nat) (cs : List Char) : Option Nat :=
  (unsigned? cs).filter (· < bound)

end DataRepository.Text
