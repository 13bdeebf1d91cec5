import DataRepository.Number.Nearest
import DataRepository.Text.Numeral

/-!
# Values of settings

What a configuration file or an environment variable gives for a setting, and how a value becomes the
text, the truth value or the natural number that the setting needs.
-/
namespace DataRepository.Settings

/-- The value of a setting before its type counts. -/
inductive Value where
  | nothing
  | flag (b : Bool)
  | whole (n : Int)
  | double (d : Double)
  | text (s : String)
  | list (items : List Value)
  | table (members : List (String × Value))

/-! ## Tables -/

def member? (name : String) (members : List (String × Value)) : Option Value :=
  (members.find? (·.1 = name)).map (·.2)

/-- Puts a member into its place, or at the end. -/
def putMember (name : String) (v : Value) : List (String × Value) → List (String × Value)
  | [] => [(name, v)]
  | m :: rest => if m.1 = name then (name, v) :: rest else m :: putMember name v rest

/-! ## Reading numerals -/

/-- The whole number of sixty-four bits that a numeral with an optional sign spells. -/
def whole? (cs : List Char) : Option Int :=
  match cs with
  | '-' :: ds => ((Text.digits? ds).filter (· ≤ 0x8000000000000000)).map fun n => -(n : Int)
  | ds => (Text.unsignedBelow? 0x8000000000000000 ds).map fun n => (n : Int)

def lower (s : String) : String := String.ofList (s.toList.map Char.toLower)

/-- The value of an environment variable: `true` or `false` in any case, else a whole number, else a
double, else its text. -/
def Value.ofVariable (s : String) : Value :=
  if lower s = "true" then .flag true
  else if lower s = "false" then .flag false
  else
    match whole? s.toList with
    | some n => .whole n
    | none =>
      match Double.ofText? s.toList with
      | some d => .double d
      | none => .text s

/-! ## What a setting needs -/

def trueWords : List String := ["true", "on", "yes"]

def falseWords : List String := ["false", "off", "no"]

namespace Value

def wholeText (n : Int) : String :=
  String.ofList ((if n < 0 then ['-'] else []) ++ Nat.toDigits 10 n.natAbs)

def asText? : Value → Option String
  | flag b => some (if b then "true" else "false")
  | whole n => some (wholeText n)
  | double d => some (String.ofList d.plainChars)
  | text s => some s
  | _ => none

/-- A value as a truth value: a number is true unless it is zero. -/
def asFlag? : Value → Option Bool
  | flag b => some b
  | whole n => some (n ≠ 0)
  | double d => some (! d.isZero)
  | text s =>
    if "1" :: trueWords |>.contains (lower s) then some true
    else if "0" :: falseWords |>.contains (lower s) then some false
    else none
  | _ => none

/-- A value as a natural number below `2 ^ 64`: a double is rounded and kept in range. -/
def asWord? : Value → Option Nat
  | flag b => some (if b then 1 else 0)
  | whole n => if 0 ≤ n then some n.toNat else none
  | double d => some (d.roundedBelow (UInt64.size - 1))
  | text s =>
    if trueWords.contains (lower s) then some 1
    else if falseWords.contains (lower s) then some 0
    else Text.unsignedBelow? UInt64.size s.toList
  | _ => none

/-- A value, or none for `nothing`. -/
def asOptional? {α : Type} (as : Value → Option α) : Value → Option (Option α)
  | nothing => some none
  | v => (as v).map some

end Value

end DataRepository.Settings
