import DataRepository.Text.Utf8

/-!
# Request targets

What a request line names: the origin of the server, which is most often left out, the path, and the
query.  A fragment is dropped.  The path is kept as it is written; nothing is decoded.  A text with a
character that has to be escaped where it stands is no target.
-/
namespace DataRepository.Http

/-- Whether a character may stand in a path as it is. -/
def isPathChar (c : Char) : Bool := ' ' < c ∧ c ∉ ['#', '<', '>', '?', '\x60', '\x7f']

def isQueryChar (c : Char) : Bool := ' ' < c ∧ c ∉ ['"', '#', '<', '>', '\x7f']

structure Target where
  origin : String := ""
  path : String
  query : Option String := none
  plainPath : path.toList.all isPathChar = true := by exact Eq.refl true
  plainQuery : query.all (·.toList.all isQueryChar) = true := by exact Eq.refl true
deriving DecidableEq

/-- Whether a text may be the value of a header: it has no control character but tab. -/
def isHeaderText (text : String) : Bool :=
  text.toList.all fun c => c = '\t' ∨ (' ' ≤ c ∧ c ≠ '\x7f')

/-- A path that is sent in a header. -/
structure Location where
  path : String
  isText : isHeaderText path = true
deriving DecidableEq

namespace Target

def text (t : Target) : String :=
  t.origin ++ t.path ++ (match t.query with | some q => "?" ++ q | none => "")

/-- **The path of every target can be sent in a header.** -/
theorem isHeaderText_path (t : Target) : isHeaderText t.path = true := by
  refine List.all_eq_true.mpr fun c hc => ?_
  have hplain := of_decide_eq_true (List.all_eq_true.mp t.plainPath c hc)
  refine decide_eq_true (.inr ⟨UInt32.le_of_lt hplain.1, ?_⟩)
  rintro rfl
  exact hplain.2 (by decide)

def location (t : Target) : Location := ⟨t.path, t.isHeaderText_path⟩

@[simp]
theorem path_location (t : Target) : t.location.path = t.path := rfl

theorem location_congr {t t' : Target} (h : t.path = t'.path) : t.location = t'.location := by
  simp only [location, h]

/-- The target of these parts, if every character may stand where it is. -/
def ofParts? (origin path : String) (query : Option String) : Option Target :=
  if hpath : path.toList.all isPathChar = true then
    if hquery : query.all (·.toList.all isQueryChar) = true then
      some ⟨origin, path, query, hpath, hquery⟩
    else none
  else none

/-- Reads path and query, up to the fragment. -/
def ofPath? (origin : List Char) (cs : List Char) (whenEmpty : String) : Option Target :=
  let cs := cs.takeWhile (· ≠ '#')
  let path := cs.takeWhile (· ≠ '?')
  ofParts? (String.ofList origin) (if path = [] then whenEmpty else String.ofList path) <|
    match cs.dropWhile (· ≠ '?') with
    | _ :: q => some (String.ofList q)
    | [] => none

/-- The part of a target before its path: a scheme, `://`, and an authority, or an authority alone. -/
def originLength (cs : List Char) : Nat :=
  let ends (c : Char) : Bool := c = '/' ∨ c = '?' ∨ c = '#'
  let scheme := cs.takeWhile (fun c => c ≠ ':' ∧ ¬ ends c)
  match cs.drop scheme.length with
  | ':' :: '/' :: '/' :: rest =>
    scheme.length + 3 + (rest.takeWhile (fun c => ¬ ends c)).length
  | _ => (cs.takeWhile (fun c => ¬ ends c)).length

/-- The origin with the schemes of this protocol in lower case; any other text is kept. -/
def usualOrigin (origin : List Char) : List Char :=
  let scheme := (origin.takeWhile (· ≠ ':')).map (·.toLower)
  let left := origin.drop scheme.length
  if (scheme = ['h', 't', 't', 'p'] ∨ scheme = ['h', 't', 't', 'p', 's']) ∧
      [':', '/', '/'] <+: left then scheme ++ left
  else origin

/-- Reads a target: a path; `*` for the server as a whole; or an origin with a path after it, which
is `/` when a scheme is named and no path. -/
def parse? (text : String) : Option Target :=
  match text.toList with
  | '/' :: rest => ofPath? [] ('/' :: rest) "/"
  | ['*'] => some { path := "*" }
  | cs =>
    let origin := cs.take (originLength cs)
    ofPath? (usualOrigin origin) (cs.drop (originLength cs)) (if '/' ∈ origin then "/" else "")

example : parse? "/a/b?c=1#d" = some { path := "/a/b", query := some "c=1" } := by decide +kernel
example : parse? "http://h:1/a" = some { origin := "http://h:1", path := "/a" } := by decide +kernel
example : (parse? "HTTP://Host/A").map (·.origin) = some "http://Host" ∧
    (parse? "FTP://h").map (·.origin) = some "FTP://h" := by decide +kernel
example : parse? "http://h" = some { origin := "http://h", path := "/" } := by decide +kernel
example : parse? "h:443" = some { origin := "h:443", path := "" } := by decide +kernel
example : parse? "/a\x7f" = none ∧ parse? "/a b" = none ∧ parse? "/a?\"" = none := by decide +kernel

end Target

end DataRepository.Http
