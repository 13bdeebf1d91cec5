import DataRepository.Json.Basic
import DataRepository.Text.Numeral

/-!
# Pointers

A JSON pointer names a place in a document: the empty pointer names the root, and every `/` goes one
step down, by a member's name or by an index.  In a name `~1` stands for `/` and `~0` for `~`.

- `unescape_escape`: escaping a name and reading it back gives the name;
- `tokens?_pointer`: the pointer written for a list of names is read as that list.
-/
namespace DataRepository.Patch

/-! ## Names -/

/-- One character of a name, written so that it stands for itself. -/
def escapeChar (c : Char) : List Char :=
  if c = '~' then ['~', '0'] else if c = '/' then ['~', '1'] else [c]

/-- The name with `~` and `/` written so that they stand for themselves. -/
def escape (name : List Char) : List Char := name.flatMap escapeChar

/-- The name that a token of a pointer stands for. -/
def unescape : List Char → List Char
  | '~' :: '1' :: rest => '/' :: unescape rest
  | '~' :: '0' :: rest => '~' :: unescape rest
  | c :: rest => c :: unescape rest
  | [] => []

theorem unescape_cons {c : Char} (h : c ≠ '~') (rest : List Char) :
    unescape (c :: rest) = c :: unescape rest := by
  rw [unescape]
  · rintro _ rfl; exact absurd rfl h
  · rintro _ rfl; exact absurd rfl h

theorem unescape_escape (name : List Char) : unescape (escape name) = name := by
  induction name with
  | nil => rfl
  | cons c rest ih =>
    rw [escape, List.flatMap_cons, ← escape]
    by_cases h₀ : c = '~'
    · subst h₀; simp [escapeChar, unescape, ih]
    · by_cases h₁ : c = '/'
      · subst h₁; simp [escapeChar, unescape, ih]
      · simp [escapeChar, h₀, h₁, unescape_cons h₀, ih]

theorem slash_not_mem_escape (name : List Char) : '/' ∉ escape name := by
  simp only [escape, List.mem_flatMap, not_exists, not_and]
  intro c _
  by_cases h₀ : c = '~'
  · simp [escapeChar, h₀]
  · by_cases h₁ : c = '/'
    · simp [escapeChar, h₁]
    · simp [escapeChar, h₀, h₁, Ne.symm h₁]

/-! ## Pointers as lists of names -/

/-- The names that a pointer goes through, none if it is no pointer. -/
def tokens? (pointer : String) : Option (List String) :=
  match pointer.toList with
  | [] => some []
  | '/' :: rest => some ((rest.splitOn '/').map fun t => String.ofList (unescape t))
  | _ => none

def pointer (names : List String) : String :=
  String.ofList (names.flatMap fun n => '/' :: escape n.toList)

/-- The pointer before the last `/`, and the name after it. -/
def splitLast? (pointer : String) : Option (String × String) :=
  match (pointer.toList.splitOn '/').reverse with
  | last :: parent :: before =>
    some (String.ofList (['/'].intercalate (parent :: before).reverse),
      String.ofList (unescape last))
  | _ => none

/-- After its first character the pointer is the escaped names with a slash between two. -/
theorem slashed_cons (n : String) (rest : List String) :
    (n :: rest).flatMap (fun m => '/' :: escape m.toList) =
      '/' :: ['/'].intercalate ((n :: rest).map fun m => escape m.toList) := by
  induction rest generalizing n with
  | nil => simp [List.intercalate]
  | cons m ms ih =>
    rw [List.flatMap_cons, ih]
    simp [List.intercalate]

theorem tokens?_pointer (names : List String) : tokens? (pointer names) = some names := by
  cases names with
  | nil => rfl
  | cons n rest =>
    have hsplit :
        (['/'].intercalate ((n :: rest).map fun m => escape m.toList)).splitOn '/' =
          (n :: rest).map fun m => escape m.toList :=
      List.splitOn_intercalate '/'
        (by simpa using ⟨slash_not_mem_escape _, fun m _ => slash_not_mem_escape _⟩) (by simp)
    have hchars : (pointer (n :: rest)).toList =
        '/' :: ['/'].intercalate ((n :: rest).map fun m => escape m.toList) := by
      rw [pointer, String.toList_ofList, slashed_cons]
    rw [tokens?, hchars]
    simp only [hsplit, List.map_map, Function.comp_def, unescape_escape, String.ofList_toList,
      List.map_id']

/-! ## Places -/

/-- The index that a token on the way down stands for: digits without a needless zero. -/
def index? (token : String) : Option Nat :=
  match token.toList with
  | ['0'] => some 0
  | '0' :: _ => none
  | cs => Text.digits? cs

/-- The document at the place that the names lead to. -/
def at? : List String → Json → Option Json
  | [], j => some j
  | t :: ts, .object members => Members.get? t members >>= at? ts
  | t :: ts, .array items => index? t >>= fun i => items[i]? >>= at? ts
  | _ :: _, _ => none

/-- Changes the document at the place that the names lead to. -/
def update? (change : Json → Option Json) : List String → Json → Option Json
  | [], j => change j
  | t :: ts, .object members => do
    let v ← update? change ts (← Members.get? t members)
    return .object (Members.insert t v members)
  | t :: ts, .array items => do
    let i ← index? t
    let v ← update? change ts (← items[i]?)
    return .array (items.set i v)
  | _ :: _, _ => none

end DataRepository.Patch
