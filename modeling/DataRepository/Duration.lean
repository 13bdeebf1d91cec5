/-!
# Durations

A span of time in nanoseconds, written in the largest unit of which it holds one at least, with as
many decimals as it takes.
-/
namespace DataRepository

structure Duration where
  nanoseconds : Nat
deriving DecidableEq

namespace Duration

def ofMilliseconds (n : Nat) : Duration := ⟨n * 1000000⟩

/-- A number of parts as decimals after a point, without zeros at the end; `places` parts make up
one unit as a power of ten. -/
def decimals (places parts : Nat) : List Char :=
  let digits := Nat.toDigits 10 parts
  let all := List.replicate (places - digits.length) '0' ++ digits
  let shown := (all.reverse.dropWhile (· = '0')).reverse
  if shown = [] then [] else '.' :: shown

/-- The span in a unit of `10 ^ places` nanoseconds. -/
def inUnit (places : Nat) (unit : String) (d : Duration) : String :=
  String.ofList (Nat.toDigits 10 (d.nanoseconds / Nat.pow 10 places) ++
    decimals places (d.nanoseconds % Nat.pow 10 places)) ++ unit

def text (d : Duration) : String :=
  if 1000000000 ≤ d.nanoseconds then d.inUnit 9 "s"
  else if 1000000 ≤ d.nanoseconds then d.inUnit 6 "ms"
  else if 1000 ≤ d.nanoseconds then d.inUnit 3 "µs"
  else d.inUnit 0 "ns"

example : text ⟨0⟩ = "0ns" ∧ text ⟨1001⟩ = "1.001µs" ∧ text ⟨10010000⟩ = "10.01ms" ∧
    text ⟨1500000000⟩ = "1.5s" ∧ text (ofMilliseconds 3600000) = "3600s" := by decide +kernel

end Duration

end DataRepository
