import DataRepository.Text.Utf8

/-!
# Path patterns

A pattern is a path in which a wildcard may end a segment: `:name` stands for what is left of the
segment, and `*name` for everything that is left of the path.  The names of wildcards mean nothing, so
a pattern is kept as its characters and wildcards.
-/
namespace DataRepository.Routing

inductive Refusal where
  | relative
  | nameless
  | crowded
  | misplaced
  | tooManyParameters
  | mountedOnRest
  | ambiguous
  | shared
deriving DecidableEq

inductive Piece where
  | text (c : Char)
  | parameter
  | rest
deriving DecidableEq

/-- A pattern, in the order in which a path is read. -/
abbrev Pattern := List Piece

/-- The segments after each slash of a path; the path is taken to start with a slash. -/
def segments (path : List Char) : List (List Char) := (path.splitOn '/').tail

/-- Whether a character starts a wildcard. -/
def isMark (c : Char) : Bool := c = ':' ∨ c = '*'

namespace Pattern

def ofSegment (isLast : Bool) (cs : List Char) : Except Refusal Pattern :=
  let start := cs.takeWhile (! isMark ·)
  match cs.drop start.length with
  | [] => .ok (start.map .text)
  | mark :: name =>
    if name.any isMark then .error .crowded
    else if name = [] then .error .nameless
    else if mark = ':' then .ok (start.map .text ++ [.parameter])
    else if isLast ∧ start = [] then .ok [.rest]
    else .error .misplaced

/-- Reads segments, each of them behind a slash. -/
def ofSegments : List (List Char) → Except Refusal Pattern
  | [] => .ok []
  | s :: ss => do
    let pieces ← ofSegment ss.isEmpty s
    return .text '/' :: pieces ++ (← ofSegments ss)

/-- The number of parameters that a pattern may have. -/
def maxParameters : Nat := 25

/-- Reads a pattern, which starts with a slash. -/
def ofText (text : String) : Except Refusal Pattern :=
  match text.toList with
  | '/' :: cs => do
    let p ← ofSegments (segments ('/' :: cs))
    if maxParameters < p.count .parameter then throw .tooManyParameters
    return p
  | _ => .error .relative

/-- Whether no path tells the two patterns apart, or a parameter and the rest of the path would have
to be told apart. -/
def clashes : Pattern → Pattern → Bool
  | [], [] => true
  | .rest :: _, .rest :: _ => true
  | .rest :: _, .parameter :: _ => true
  | .parameter :: _, .rest :: _ => true
  | a :: p, b :: q => a = b ∧ clashes p q
  | _, _ => false

/-- Clashing is mutual. -/
theorem clashes_comm (p q : Pattern) : clashes p q = clashes q p := by
  induction p generalizing q with
  | nil => cases q <;> simp [clashes]
  | cons a p ih =>
    cases q with
    | nil => cases a <;> simp [clashes]
    | cons b q => cases a <;> cases b <;> simp only [clashes, ih q, eq_comm]

/-- The text of a pattern under a mount point. -/
def mounted (mount pattern : String) : String :=
  if mount.toList.getLast? = some '/' then
    mount ++ String.ofList (pattern.toList.dropWhile (· = '/'))
  else if pattern = "/" then mount
  else mount ++ pattern

example : (ofText "/a/:b").toOption = some [.text '/', .text 'a', .text '/', .parameter] := by decide
example : (ofText "/a/*b/c").toOption = none := by decide
example : (ofText "/a/b*c").toOption = none := by decide
example : mounted "/g" "/" = "/g" ∧ mounted "/" "//a" = "/a" := by decide

end Pattern

/-! ## Paths under a mount point -/

/-- What is left of the segments of a path after those of the mount point. -/
def remaining : (path mount : List (List Char)) → Option (List (List Char))
  | [], [] => some []
  | [], _ :: _ => none
  | s :: ss, [] => some (s :: ss)
  | s :: ss, m :: ms =>
    if s = m ∨ m.head? = some ':' then remaining ss ms
    else if m = [] then some (s :: ss)
    else none

/-- The path under a mount point, which starts with one slash at least; a path that is not under it
stays as it is. -/
def unmounted (mount path : String) : String :=
  match remaining (segments path.toList) (segments mount.toList) with
  | none => path
  | some ss =>
    let left := List.intercalate ['/'] ss
    String.ofList (if left.head? = some '/' then left else '/' :: left)

example : unmounted "/g" "/g/a/b" = "/a/b" ∧ unmounted "/g" "/g" = "/" ∧
    unmounted "/" "/a" = "/a" ∧ unmounted "/g" "/g//a" = "/a" := by decide

theorem remaining_suffix {path mount left : List (List Char)} (h : remaining path mount = some left) :
    left <:+ path := by
  fun_induction remaining path mount with
  | case1 => cases h; exact List.suffix_rfl
  | case2 => cases h
  | case3 s ss => cases h; exact List.suffix_rfl
  | case4 s ss m ms _ ih => exact (ih h).trans (List.suffix_cons s ss)
  | case5 => cases h; exact List.suffix_rfl
  | case6 => cases h

theorem all_intercalate {p : Char → Bool} {sep : List Char} (hsep : sep.all p = true)
    (parts : List (List Char)) : (sep.intercalate parts).all p = parts.all (·.all p) := by
  induction parts with
  | nil => rfl
  | cons part rest ih =>
    cases rest with
    | nil => simp
    | cons next rest =>
      rw [List.intercalate_cons_cons, List.all_append, List.all_append, ih, hsep, Bool.and_true]
      rfl

/-- What holds of the slash and of each character of a path holds of each that is left of it. -/
theorem all_unmounted {p : Char → Bool} (hslash : p '/' = true) (mount : String) {path : String}
    (h : path.toList.all p = true) : (unmounted mount path).toList.all p = true := by
  unfold unmounted
  split
  · exact h
  · rename_i left hleft
    have hsep : ['/'].all p = true := by rw [List.all_cons, hslash]; rfl
    have hparts : (path.toList.splitOn '/').all (·.all p) = true := by
      rw [← all_intercalate hsep, List.intercalate_splitOn, h]
    have hall : (['/'].intercalate left).all p = true := by
      have hsuffix := (remaining_suffix hleft).trans (List.tail_suffix _)
      rw [all_intercalate hsep, List.all_eq_true]
      exact fun s hs => List.all_eq_true.mp hparts s (hsuffix.subset hs)
    dsimp only
    rw [String.toList_ofList]
    split
    · exact hall
    · rw [List.all_cons, hslash, hall]; rfl

end DataRepository.Routing
