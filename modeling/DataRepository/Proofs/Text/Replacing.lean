import DataRepository.Text.Utf8

/-! # Replacing in a text

A pattern is replaced wherever it is met from left to right, and what has been put in is
not looked at again (`replace_append`, `replace_cons_of_unmatched`). A pattern of one
character is replaced character by character (`replace_singleton`). -/
namespace DataRepository.Text

/-- Replaces the pattern after so many characters, which belong to the match before them and are passed
over. -/
def replaceAfter (pattern new : List Char) : Nat → List Char → List Char
  | _, [] => []
  | n + 1, _ :: cs => replaceAfter pattern new n cs
  | 0, c :: cs =>
    if pattern.isPrefixOf (c :: cs) then new ++ replaceAfter pattern new (pattern.length - 1) cs
    else c :: replaceAfter pattern new 0 cs

/-- The text with the pattern, which is not empty, replaced wherever it is met from left to right. -/
def replace (pattern new cs : List Char) : List Char := replaceAfter pattern new 0 cs

variable {pattern cs : List Char} {c : Char}

@[simp] theorem replace_nil (pattern new : List Char) : replace pattern new [] = [] := rfl

theorem replaceAfter_append (pattern new passed cs : List Char) :
    replaceAfter pattern new passed.length (passed ++ cs) = replace pattern new cs := by
  induction passed with
  | nil => rfl
  | cons c rest ih => exact ih

/-- A match is replaced, and what comes after it is looked at by itself. -/
theorem replace_append (hne : pattern ≠ []) (new cs : List Char) :
    replace pattern new (pattern ++ cs) = new ++ replace pattern new cs := by
  cases pattern with
  | nil => contradiction
  | cons p rest =>
    have hmatch : (p :: rest).isPrefixOf (p :: (rest ++ cs)) := by simp
    rw [replace, List.cons_append, replaceAfter, if_pos hmatch, List.length_cons, Nat.add_sub_cancel,
      replaceAfter_append]

/-- A character at which there is no match stays. -/
theorem replace_cons_of_unmatched (h : ¬ pattern <+: c :: cs) (new : List Char) :
    replace pattern new (c :: cs) = c :: replace pattern new cs := by
  have hmatch : ¬ pattern.isPrefixOf (c :: cs) := by simpa using h
  rw [replace, replaceAfter, if_neg hmatch, replace]

/-- A single character is replaced wherever it stands. -/
theorem replace_singleton (a : Char) (new cs : List Char) :
    replace [a] new cs = cs.flatMap fun c => if c = a then new else [c] := by
  induction cs with
  | nil => rfl
  | cons c cs ih =>
    by_cases hc : c = a
    · subst hc
      rw [List.flatMap_cons, if_pos rfl, ← ih]
      exact replace_append (List.cons_ne_nil _ _) new cs
    · have hmatch : ¬ [a] <+: c :: cs := by simp [List.cons_prefix_cons, Ne.symm hc]
      rw [replace_cons_of_unmatched hmatch, ih, List.flatMap_cons, if_neg hc, List.singleton_append]

/-- What stands first after a replacement has been put in or stood first before. -/
theorem head?_replace (pattern : List Char) (a : Char) (new cs : List Char) :
    (replace pattern (a :: new) cs).head? = some a ∨
      (replace pattern (a :: new) cs).head? = cs.head? := by
  cases cs with
  | nil => exact .inr rfl
  | cons c cs =>
    rw [replace, replaceAfter]
    split
    · exact .inl rfl
    · exact .inr rfl

end DataRepository.Text
