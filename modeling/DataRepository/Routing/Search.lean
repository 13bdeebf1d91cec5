import DataRepository.Routing.Pattern

/-!
# Finding the pattern of a path

Patterns are compared with a path as they are read together from the left.  A character of the path
decides for the patterns that name it; only if none of them stands for the path are the patterns with
a wildcard in that place tried.  A search does not turn back, however, where a slash too many or too
few at the end of the path is what it failed on.
-/
namespace DataRepository.Routing

variable {ρ : Type}

/-- What is left to read of patterns that agree so far, each with what it leads to. -/
abbrev Ways (ρ : Type) := List (Pattern × ρ)

inductive Outcome (ρ : Type) where
  | found (r : ρ)
  | missed
  | stopped

namespace Outcome

def toOption : Outcome ρ → Option ρ
  | .found r => some r
  | .missed => none
  | .stopped => none

/-- The outcome of another search where the first one missed. -/
def orElse (first : Outcome ρ) (second : Unit → Outcome ρ) : Outcome ρ :=
  match first with
  | .missed => second ()
  | .found r => .found r
  | .stopped => .stopped

end Outcome

/-- The text that a pattern has in common with the start of another text. -/
def commonText : List Char → Pattern → List Char
  | c :: cs, .text d :: p => if c = d then c :: commonText cs p else []
  | _, _ => []

/-- What a text and a pattern have in common starts the text. -/
theorem commonText_prefix (cs : List Char) (p : Pattern) : commonText cs p <+: cs := by
  fun_induction commonText cs p with
  | case1 c cs p ih => simpa using ih
  | case2 => exact List.nil_prefix
  | case3 => exact List.nil_prefix

/-- The text that a pattern starts with. -/
def leadingText : Pattern → List Char
  | .text c :: p => c :: leadingText p
  | _ => []

namespace Ways

def start : Ways ρ → List Char
  | [] => []
  | (p, _) :: ways => ways.foldl (fun cs way => commonText cs way.1) (leadingText p)

/-- What is left after this many pieces. -/
def drop (n : Nat) (ways : Ways ρ) : Ways ρ := ways.map fun (p, r) => (p.drop n, r)

/-- The ways that go on with this piece, after it. -/
def after (piece : Piece) (ways : Ways ρ) : Ways ρ :=
  ways.filterMap fun (p, r) => if p.head? = some piece then some (p.tail, r) else none

/-- Where the ways lead if the path ends here. -/
def here? (ways : Ways ρ) : Option ρ := (ways.find? (·.1.isEmpty)).map (·.2)

/-- How a search ends that cannot go on, when this much of the path was left at the last place where
patterns part. -/
def failing (left : List Char) : Outcome ρ := if left = ['/'] then .stopped else .missed

/-- Follows a path along patterns that all go on with the character `c`, which is read from the path.
Patterns with a parameter, of which `params` is what is left, are tried last. -/
def follow (c : Char) (ways : Ways ρ) (path : List Char) : Outcome ρ :=
  let text := ways.start
  let left := ways.drop text.length
  if text <+: path then
    match h : path.drop text.length with
    | [] => match left.here? with
      | some r => .found r
      | none => failing (c :: path)
    | d :: rest =>
      have : rest.length < path.length := by
        have := congrArg List.length h; simp at this; omega
      let named := left.after (.text d)
      let params := left.after .parameter
      let rests := left.after .rest
      if named.isEmpty && params.isEmpty && rests.isEmpty then failing (d :: rest)
      else
        (if named.isEmpty then .missed else follow d named rest).orElse fun _ =>
          match rests.here? with
          | some r => .found r
          | none =>
            if params.isEmpty then .missed
            else
              let below := params.after (.text '/')
              match h' : (d :: rest).dropWhile (· ≠ '/') with
              | [] => match params.here? with
                | some r => .found r
                | none => if below.here?.isSome then .stopped else .missed
              | slash :: rest' =>
                have : rest'.length < path.length := by
                  have h₁ := congrArg List.length h'
                  have h₂ := (List.dropWhile_suffix (l := d :: rest) (· ≠ '/')).length_le
                  have h₃ := congrArg List.length h
                  simp at h₁ h₂ h₃; omega
                if below.isEmpty then failing (slash :: rest') else follow '/' below rest'
  else if text = path ++ ['/'] ∧ left.here?.isSome then .stopped
  else failing (c :: path)
termination_by path.length

/-- Where the patterns lead that stand for a path. -/
def find? (ways : Ways ρ) (path : List Char) : Option ρ :=
  match path with
  | '/' :: rest => (follow '/' (ways.after (.text '/')) rest).toOption
  | _ => none

end Ways

end DataRepository.Routing
