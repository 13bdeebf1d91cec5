import DataRepository.Telemetry.Event
import DataRepository.Text.Blank
import DataRepository.Text.Numeral
import DataRepository.Text.WordChar

/-!
# Log directives

A directive names a part of the program and the least grave level that it records there, or all of it
if it names no part, or all levels if it names no level.  In brackets after the part it may name a
component, and in braces a field that it asks for, with its value or without.
-/
namespace DataRepository.Telemetry

/-- A field that a directive asks for. -/
structure FieldTest where
  name : String
  value : Option String
deriving DecidableEq

/-- The events up to some level of the parts whose names start with `target`, in a component and with
a field. -/
structure Directive where
  target : String := ""
  span : Option String := none
  field : Option FieldTest := none
  rank : Nat := Level.trace.rank
deriving DecidableEq

/-- Reads what a directive asks of a field: what follows a second `=` does not count. -/
def FieldTest.ofChars (cs : List Char) : FieldTest :=
  match cs.splitOn '=' with
  | name :: value :: _ => ⟨String.ofList name, some (String.ofList value)⟩
  | _ => ⟨String.ofList cs, none⟩

namespace Directive

inductive Flaw where
  | form
  | level
deriving DecidableEq

def Flaw.text : Flaw → String
  | form => "invalid filter directive"
  | level => "error parsing level filter: expected one of \"off\", \"error\", \"warn\", " ++
    "\"info\", \"debug\", \"trace\", or a number 0-5"

/-- The ranks by their names; `off` is below all levels. -/
def names : List String := ["off", "error", "warn", "info", "debug", "trace"]

/-- The rank that a word stands for: a name in letters of either case, or the rank itself. -/
def rank? (word : String) : Option Nat :=
  Text.unsignedBelow? names.length word.toList <|>
    names.findIdx? (· = String.ofList (word.toList.map Char.toLower))

/-- Whether a directive may start with a character. -/
def isStart (c : Char) : Bool := Text.isWordChar c ∨ c = '-' ∨ c = ':' ∨ c = '_'

/-- The characters from one place to before another. -/
def slice (text : List Char) (start stop : Nat) : String :=
  String.ofList ((text.drop start).take (stop - start))

/-- Reads what follows the part, component and field that a directive names: nothing, or an equals
sign at this place and a level. -/
def withRank (d : Directive) (text : List Char) (place : Nat) :
    List Char → Except Flaw Directive
  | [] => .ok d
  | '=' :: _ =>
    match text.drop (place + 1) with
    | [] => .ok d
    | word =>
      match rank? (String.ofList word) with
      | some rank => .ok { d with rank }
      | none => .error .level
  | _ => .error .form

/-- Reads what follows a bracket: the name of a component or nothing, and perhaps a field in braces.
The place is that of the first character after the bracket. -/
def withSpan (target : String) (text : List Char) (place : Nat) (cs : List Char) :
    Except Flaw Directive :=
  let stop := place + (cs.takeWhile fun c => c ≠ ']' ∧ c ≠ '\x7b').length
  let name := slice text place stop
  match cs.drop (stop - place) with
  | ']' :: rest => withRank { target, span := some name } text (stop + 1) rest
  | '\x7b' :: rest =>
    let fieldStop := stop + 1 + (rest.takeWhile (· ≠ '\x7d')).length
    match (text.drop (stop + 1)).take (fieldStop - (stop + 1)),
      rest.drop (fieldStop - (stop + 1)) with
    | [], _ => .error .form
    | field, '\x7d' :: ']' :: rest =>
      let span := if name = "" then none else some name
      withRank { target, span, field := some (.ofChars field) } text (fieldStop + 2) rest
    | _, _ => .error .form
  | _ => .error .form

/-- Reads a directive.  Its form is judged without the blanks around it, but its parts are taken from
the same places of the text with them. -/
def ofText (whole : String) : Except Flaw Directive :=
  let text := whole.toList
  let cs := ((text.dropWhile Text.isBlank).reverse.dropWhile Text.isBlank).reverse
  let stop := (cs.takeWhile fun c => c ≠ '=' ∧ c ≠ '[').length
  let startsWell := cs.head?.any isStart
  match cs.drop stop with
  | '[' :: rest =>
    if startsWell ∨ stop = 0 then withSpan (slice text 0 stop) text (stop + 1) rest
    else .error .form
  | [] =>
    if ! startsWell then .error .form
    else match rank? whole with
      | some rank => .ok { rank }
      | none => .ok { target := whole }
  | rest =>
    if ! startsWell then .error .form
    else withRank { target := slice text 0 stop } text stop rest

example : (ofText "udr=info").toOption = some { target := "udr", rank := 3 } ∧
    (ofText "a[udr\x7bx=1\x7d]=1").toOption =
      some { target := "a", span := some "udr", field := some ⟨"x", some "1"⟩, rank := 1 } ∧
    (ofText " udr=info").toOption = none := by decide +kernel

end Directive

/-- The directives of a text, which are separated by commas, each with its reading. -/
def directives (text : String) : List (String × Except Directive.Flaw Directive) :=
  ((text.toList.splitOn ',').filter (· ≠ [])).map fun cs =>
    (String.ofList cs, Directive.ofText (String.ofList cs))

end DataRepository.Telemetry
