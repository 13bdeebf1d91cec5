import DataRepository.Text.Blank
import Mathlib.Data.List.DropRight

/-! # What trimming leaves

`trimChars` drops blanks from the front while it reads and then from the back. What it leaves is
described without the two passes: the one stretch of a text that has no blank at either end and
nothing but blanks before and after it. -/
namespace DataRepository.Text

def AllBlank (cs : List Char) : Prop := ∀ c ∈ cs, isBlank c = true

/-- The text has no blank at either end. -/
structure IsTrimmed (cs : List Char) : Prop where
  head : ∀ c ∈ cs.head?, isBlank c = false
  last : ∀ c ∈ cs.getLast?, isBlank c = false

theorem AllBlank.nil : AllBlank [] := List.forall_mem_nil _

theorem AllBlank.append {cs ds : List Char} (hcs : AllBlank cs) (hds : AllBlank ds) :
    AllBlank (cs ++ ds) := by
  intro c hc
  rcases List.mem_append.mp hc with hc | hc
  · exact hcs c hc
  · exact hds c hc

theorem isAllBlank_iff {s : String} : isAllBlank s = true ↔ AllBlank s.toList := List.all_eq_true

theorem isTrimmed_of_unblank {cs : List Char} (h : ∀ c ∈ cs, isBlank c = false) : IsTrimmed cs where
  head c hc := h c (List.mem_of_head? hc)
  last c hc := h c (List.mem_of_getLast? hc)

/-- Two stretches with anything between them have the head of the first and the end of the second. -/
theorem isTrimmed_append {first between last : List Char} (hfirst : IsTrimmed first)
    (hne : first ≠ []) (hlast : IsTrimmed last) (hne' : last ≠ []) :
    IsTrimmed (first ++ between ++ last) where
  head c hc := by
    rw [List.append_assoc, List.head?_append_of_ne_nil _ hne] at hc
    exact hfirst.head c hc
  last c hc := by
    rw [List.getLast?_append_of_ne_nil _ hne'] at hc
    exact hlast.last c hc

theorem dropWhile_of_head? {cs : List Char} (h : ∀ c ∈ cs.head?, isBlank c = false) :
    cs.dropWhile isBlank = cs := by
  cases cs with
  | nil => rfl
  | cons c cs => rw [List.dropWhile_cons, h c rfl, if_neg Bool.false_ne_true]

theorem trimChars_eq_rdropWhile (cs : List Char) :
    trimChars cs = (cs.dropWhile isBlank).rdropWhile isBlank := rfl

/-- Trimming takes blanks from both ends. -/
theorem exists_trimChars (cs : List Char) :
    ∃ before after, cs = before ++ trimChars cs ++ after ∧ AllBlank before ∧ AllBlank after := by
  refine ⟨cs.takeWhile isBlank, (cs.dropWhile isBlank).rtakeWhile isBlank, ?_,
    fun c => List.mem_takeWhile_imp, fun c => List.mem_rtakeWhile_imp⟩
  rw [trimChars_eq_rdropWhile, List.append_assoc, List.rdropWhile_append_rtakeWhile,
    List.takeWhile_append_dropWhile]

/-- Trimming leaves no blank at either end. -/
theorem isTrimmed_trimChars (cs : List Char) : IsTrimmed (trimChars cs) where
  head c hc := by
    -- What is left begins as the text does without the blanks at its front.
    have hfront : c ∈ (cs.dropWhile isBlank).head? := by
      obtain ⟨after, hafter⟩ := List.rdropWhile_prefix isBlank (l := cs.dropWhile isBlank)
      rw [← trimChars_eq_rdropWhile] at hafter
      rw [← hafter, List.head?_append, hc]
      rfl
    have hnot := List.head?_dropWhile_not isBlank cs
    rw [hfront] at hnot
    exact hnot
  last c hc := by
    obtain ⟨hne, hlast⟩ := List.mem_getLast?_eq_getLast hc
    have hnot := List.rdropWhile_last_not isBlank (cs.dropWhile isBlank) hne
    rw [hlast]
    exact Bool.eq_false_iff.mpr hnot

theorem trimChars_of_isTrimmed {before core after : List Char} (hbefore : AllBlank before)
    (hcore : IsTrimmed core) (hafter : AllBlank after) :
    trimChars (before ++ core ++ after) = core := by
  by_cases hne : core = []
  · subst hne
    have hall : AllBlank (before ++ [] ++ after) := (hbefore.append .nil).append hafter
    rw [trimChars, List.dropWhile_eq_nil_iff.mpr hall]
    rfl
  · have hfront : ∀ c ∈ (core ++ after).head?, isBlank c = false := by
      rw [List.head?_append_of_ne_nil _ hne]
      exact hcore.head
    have hback : ∀ c ∈ core.reverse.head?, isBlank c = false := by
      rw [List.head?_reverse]
      exact hcore.last
    have hafter' : ∀ c ∈ after.reverse, isBlank c = true := fun c hc => hafter c (by simpa using hc)
    rw [trimChars, List.append_assoc, List.dropWhile_append_of_pos hbefore, dropWhile_of_head? hfront,
      List.reverse_append, List.dropWhile_append_of_pos hafter', dropWhile_of_head? hback,
      List.reverse_reverse]

/-- **Trimming leaves the stretch without a blank at either end that has nothing but blanks before and
after it.** -/
theorem trimChars_eq_iff {cs core : List Char} :
    trimChars cs = core ↔ IsTrimmed core ∧
      ∃ before after, cs = before ++ core ++ after ∧ AllBlank before ∧ AllBlank after := by
  constructor
  · intro h
    subst h
    exact ⟨isTrimmed_trimChars cs, exists_trimChars cs⟩
  · intro h
    obtain ⟨hcore, before, after, rfl, hbefore, hafter⟩ := h
    exact trimChars_of_isTrimmed hbefore hcore hafter

end DataRepository.Text
