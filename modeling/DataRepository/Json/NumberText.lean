import DataRepository.Json.Fault

/-!
# Numbers of a text

Reading a number.  The digits are gathered into a significand as long as it fits a word of sixty-four
bits; digits before the point that no longer fit count as powers of ten, and digits after the point
that no longer fit are dropped.  Without point and exponent the number is a whole number if it is in
range, except `-0`.  Every other number is the significand times a power of ten, one rounding for the
significand and one for each factor of at most `10 ^ 308`.
-/
namespace DataRepository.Json

/-- The bytes after the digits at the front. -/
def skipDigits (bs : Bytes) : Bytes := bs.dropWhile isDigit

/-- Takes digits into the significand while it stays below `2 ^ 64`: the significand, how many digits
were taken, and the bytes left. -/
def gather (significand taken : Nat) : Bytes → Nat × Nat × Bytes
  | [] => (significand, taken, [])
  | b :: rest =>
    match digit? b with
    | some d =>
      if significand * 10 + d < UInt64.size then gather (significand * 10 + d) (taken + 1) rest
      else (significand, taken, b :: rest)
    | none => (significand, taken, b :: rest)

/-- The greatest power of ten that is a double. -/
def greatestPower : Nat := 308

/-- A power of ten as a double. -/
def powerOfTen (n : Nat) : Float := Float.ofScientific 1 false n

/-- The value divided by `10 ^ n`, at most `10 ^ 308` at a time.  Three such steps take the greatest
significand to zero, so a count of four is never used up. -/
def divideByPower (count : Nat) (x : Float) (n : Nat) : Float :=
  match count with
  | 0 => x
  | count + 1 =>
    if n ≤ greatestPower then x / powerOfTen n
    else if x == 0.0 then x
    else divideByPower count (x / powerOfTen greatestPower) (n - greatestPower)

/-- The double `significand * 10 ^ e`, with a minus sign unless `positive`; none if it is too great. -/
def scaled? (positive : Bool) (significand : Nat) (e : Int) : Option Double :=
  let x := significand.toUInt64.toFloat
  let magnitude? :=
    if e < 0 then some (divideByPower 4 x e.natAbs)
    else if greatestPower < e.toNat then if x == 0.0 then some x else none
    else
      let y := x * powerOfTen e.toNat
      if y.isInf then none else some y
  magnitude?.map fun y => Double.ofFloat (if positive then y else -y)

/-- The double with these parts, read up to `rest`. -/
def double (positive : Bool) (significand : Nat) (e : Int) (rest : Bytes) : Scan Double :=
  match scaled? positive significand e with
  | some d => .ok (d, rest)
  | none => failHere .numberOutOfRange rest

/-- The greatest exponent that is read exactly. -/
def greatestExponent : Nat := 0x7fffffff

/-- The digits of an exponent up to `greatestExponent`; none, with the bytes after the digit that
went beyond it. -/
def gatherExponent (e : Nat) : Bytes → Option Nat × Bytes
  | [] => (some e, [])
  | b :: rest =>
    match digit? b with
    | some d =>
      if e * 10 + d ≤ greatestExponent then gatherExponent (e * 10 + d) rest else (none, rest)
    | none => (some e, b :: rest)

/-- An exponent that saturates at the ends of the signed thirty-two-bit range. -/
def saturate (e : Int) : Int := max (-0x80000000) (min 0x7fffffff e)

/-- Reads an exponent after its `e`, on top of the power that the digits already have. -/
def exponentPart (positive : Bool) (significand : Nat) (power : Int) (bs : Bytes) : Scan Double :=
  let (up, bs) := match bs with
    | b :: rest => if is '+' b then (true, rest) else if is '-' b then (false, rest) else (true, bs)
    | [] => (true, bs)
  match bs with
  | [] => failHere .endInValue []
  | b :: rest =>
    match digit? b with
    | none => failHere .invalidNumber rest
    | some d =>
      match gatherExponent d rest with
      | (some e, rest) =>
        double positive significand (saturate (if up then power + e else power - e)) rest
      | (none, rest) =>
        if significand ≠ 0 ∧ up then failHere .numberOutOfRange rest
        else .ok (Double.ofFloat (if positive then 0.0 else -0.0), skipDigits rest)

/-- What follows the digits of a number that is not whole: an exponent or nothing. -/
def afterDigits (positive : Bool) (significand : Nat) (power : Int) (bs : Bytes) : Scan Double :=
  match bs with
  | b :: rest =>
    if is 'e' b || is 'E' b then exponentPart positive significand power rest
    else double positive significand power bs
  | [] => double positive significand power bs

def decimalPart (positive : Bool) (significand : Nat) (power : Int) (bs : Bytes) : Scan Double :=
  let (s, taken, rest) := gather significand 0 bs
  if startsWithDigit rest then afterDigits positive s (power - taken) (skipDigits rest)
  else if taken = 0 then
    match rest with
    | [] => failNext .endInValue []
    | _ :: _ => failNext .invalidNumber rest
  else afterDigits positive s (power - taken) rest

/-- What follows the integer part of a number that is not whole. -/
def afterInteger (positive : Bool) (significand : Nat) (power : Int) (bs : Bytes) : Scan Double :=
  match bs with
  | b :: rest =>
    if is '.' b then decimalPart positive significand power rest
    else afterDigits positive significand power bs
  | [] => afterDigits positive significand power bs

def hasFraction : Bytes → Bool
  | b :: _ => is '.' b || is 'e' b || is 'E' b
  | [] => false

/-- The number whose integer part has been read and fits. -/
def afterWhole (positive : Bool) (significand : Nat) (bs : Bytes) : Scan Number :=
  if hasFraction bs then
    (afterInteger positive significand 0 bs).map fun (d, rest) => (.double d, rest)
  else
    let signed : Int := if positive then significand else -(significand : Int)
    if !positive && significand == 0 then .ok (.double .negativeZero, bs)
    else
      match Whole.ofInt? signed with
      | some w => .ok (.whole w, bs)
      | none => .ok (.double (Double.ofFloat (-significand.toUInt64.toFloat)), bs)

def numberText (positive : Bool) (bs : Bytes) : Scan Number :=
  match bs with
  | [] => failHere .endInValue []
  | b :: rest =>
    match digit? b with
    | none => failHere .invalidNumber rest
    | some 0 => if startsWithDigit rest then failNext .invalidNumber rest
      else afterWhole positive 0 rest
    | some d =>
      let (s, _, rest) := gather d 0 rest
      if startsWithDigit rest then
        let left := skipDigits rest
        (afterInteger positive s (rest.length - left.length : Nat) left).map
          fun (d, rest) => (.double d, rest)
      else afterWhole positive s rest

/-! ## Passing over -/

def skipExponent (bs : Bytes) : Except Fault Bytes :=
  let bs := match bs with
    | b :: rest => if is '+' b || is '-' b then rest else bs
    | [] => bs
  match bs with
  | [] => failHere .invalidNumber []
  | b :: rest => if isDigit b then .ok (skipDigits rest) else failHere .invalidNumber rest

def skipAfterDigits (bs : Bytes) : Except Fault Bytes :=
  match bs with
  | b :: rest => if is 'e' b || is 'E' b then skipExponent rest else .ok bs
  | [] => .ok bs

def skipNumber (bs : Bytes) : Except Fault Bytes :=
  let afterInteger (bs : Bytes) : Except Fault Bytes :=
    match bs with
    | b :: rest =>
      if is '.' b then
        if startsWithDigit rest then skipAfterDigits (skipDigits rest)
        else failNext .invalidNumber rest
      else skipAfterDigits bs
    | [] => .ok []
  match bs with
  | [] => failHere .invalidNumber []
  | b :: rest =>
    if is '0' b then
      if startsWithDigit rest then failNext .invalidNumber rest else afterInteger rest
    else if isDigit b then afterInteger (skipDigits rest)
    else failHere .invalidNumber rest

end DataRepository.Json
