/-!
# White space

The characters with the Unicode property White_Space, the trimming of a text, and the words that
they separate.

- `mem_words`: a word is not empty and holds no blank character.
-/
namespace DataRepository.Text

/-- Whether the character has the property White_Space. -/
def isBlank (c : Char) : Bool :=
  let n := c.toNat
  (0x9 ≤ n && n ≤ 0xd) || n == 0x20 || n == 0x85 || n == 0xa0 || n == 0x1680 ||
    (0x2000 ≤ n && n ≤ 0x200a) || n == 0x2028 || n == 0x2029 || n == 0x202f || n == 0x205f ||
    n == 0x3000

/-- The characters without the blanks at both ends. -/
def trimChars (cs : List Char) : List Char :=
  ((cs.dropWhile isBlank).reverse.dropWhile isBlank).reverse

def isAllBlank (s : String) : Bool :=
  s.toList.all isBlank

/-- The words of a text whose first word began with the characters in `current`, reversed. -/
def wordsFrom (current : List Char) : List Char → List (List Char)
  | [] => if current.isEmpty then [] else [current.reverse]
  | c :: rest =>
    if isBlank c then
      if current.isEmpty then wordsFrom [] rest else current.reverse :: wordsFrom [] rest
    else wordsFrom (c :: current) rest

/-- The maximal stretches of characters that are not blank, in order. -/
def words (s : String) : List String :=
  (wordsFrom [] s.toList).map String.ofList

theorem mem_wordsFrom {w current cs : List Char} (hc : ∀ c ∈ current, isBlank c = false)
    (h : w ∈ wordsFrom current cs) : w ≠ [] ∧ ∀ c ∈ w, isBlank c = false := by
  induction cs generalizing current with
  | nil =>
    cases current with
    | nil => simp [wordsFrom] at h
    | cons a as =>
      simp only [wordsFrom, List.isEmpty_cons, Bool.false_eq_true, if_false,
        List.mem_singleton] at h
      subst h
      exact ⟨by simp, fun c hm => hc c (List.mem_reverse.mp hm)⟩
  | cons c rest ih =>
    by_cases hb : isBlank c = true
    · cases current with
      | nil =>
        simp only [wordsFrom, hb, if_true, List.isEmpty_nil] at h
        exact ih (by simp) h
      | cons a as =>
        simp only [wordsFrom, hb, if_true, List.isEmpty_cons, Bool.false_eq_true, if_false,
          List.mem_cons] at h
        rcases h with h | h
        · subst h
          exact ⟨by simp, fun c hm => hc c (List.mem_reverse.mp hm)⟩
        · exact ih (by simp) h
    · simp only [wordsFrom, hb, Bool.false_eq_true, if_false] at h
      refine ih (fun d hd => ?_) h
      rcases List.mem_cons.mp hd with rfl | hd
      · simpa using hb
      · exact hc d hd

/-- **A word is not empty and holds no blank character.** -/
theorem mem_words {w s : String} (h : w ∈ words s) :
    w ≠ "" ∧ ∀ c ∈ w.toList, isBlank c = false := by
  obtain ⟨cs, hm, rfl⟩ := List.mem_map.mp h
  obtain ⟨hne, hb⟩ := mem_wordsFrom (by simp) hm
  exact ⟨fun he => hne (by simpa using congrArg String.toList he), by simpa using hb⟩

end DataRepository.Text
