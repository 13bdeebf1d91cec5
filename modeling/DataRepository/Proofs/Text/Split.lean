import DataRepository.Text.Utf8

/-! # Splitting at a character

What `List.splitOn` gives, part by part: a part does not hold the separator, and
the first part ends where the separator first stands. -/
namespace DataRepository.Text

variable {a : Char} {xs ys : List Char}

theorem not_mem_of_mem_splitOn (h : ys ∈ xs.splitOn a) : a ∉ ys := by
  induction xs generalizing ys with
  | nil =>
    rw [List.splitOn_nil, List.mem_singleton] at h
    simp [h]
  | cons x xs ih =>
    rw [List.splitOn_cons_eq_if_modifyHead] at h
    split at h
    · rcases List.mem_cons.mp h with rfl | h
      · simp
      · exact ih h
    · rename_i hx
      obtain ⟨first, rest, hs⟩ := List.exists_cons_of_ne_nil (List.splitOn_ne_nil a xs)
      rw [hs, List.modifyHead_cons] at h
      rcases List.mem_cons.mp h with rfl | h
      · have := ih (hs ▸ List.mem_cons_self)
        simp only [List.mem_cons, not_or]
        exact ⟨fun he => hx (by simp [he]), this⟩
      · exact ih (hs ▸ List.mem_cons_of_mem _ h)

theorem splitOn_eq_singleton_iff : xs.splitOn a = [ys] ↔ xs = ys ∧ a ∉ ys := by
  constructor
  · intro h
    have hys : ys ∈ xs.splitOn a := h ▸ List.mem_singleton_self ys
    have hxs : [a].intercalate (xs.splitOn a) = xs := List.intercalate_splitOn a
    rw [h] at hxs
    exact ⟨by simpa [List.intercalate] using hxs.symm, not_mem_of_mem_splitOn hys⟩
  · rintro ⟨rfl, h⟩
    exact List.splitOn_eq_singleton h

theorem splitOn_eq_cons_iff {part : List Char} {parts : List (List Char)} (hne : parts ≠ []) :
    xs.splitOn a = part :: parts ↔
      ∃ rest, xs = part ++ a :: rest ∧ a ∉ part ∧ rest.splitOn a = parts := by
  constructor
  · intro h
    have hall : ∀ l ∈ part :: parts, a ∉ l := fun l hl => not_mem_of_mem_splitOn (h ▸ hl)
    obtain ⟨hpart, hparts⟩ := List.forall_mem_cons.mp hall
    have hxs : [a].intercalate (xs.splitOn a) = xs := List.intercalate_splitOn a
    rw [h, List.intercalate_cons_of_ne_nil hne] at hxs
    refine ⟨[a].intercalate parts, by simpa using hxs.symm, hpart, ?_⟩
    exact List.splitOn_intercalate a hparts hne
  · rintro ⟨rest, rfl, hpart, hrest⟩
    rw [List.splitOn_append_cons_self_of_not_mem hpart, hrest]

/-- Parts that each end in the separator are split into themselves and the nothing after the last. -/
theorem splitOn_flatMap_append_singleton {parts : List (List Char)} (h : ∀ part ∈ parts, a ∉ part) :
    (parts.flatMap (· ++ [a])).splitOn a = parts ++ [[]] := by
  induction parts with
  | nil => rfl
  | cons part rest ih =>
    obtain ⟨hpart, hrest⟩ := List.forall_mem_cons.mp h
    have hcons : (part :: rest).flatMap (· ++ [a]) = part ++ a :: rest.flatMap (· ++ [a]) := by simp
    rw [hcons, List.splitOn_append_cons_self_of_not_mem hpart, ih hrest, List.cons_append]

/-! ## The last separator -/

/-- What stands before the last of these characters, and what stands after it. -/
def cutAtLast? (a : Char) : List Char → Option (List Char × List Char)
  | [] => none
  | x :: xs =>
    match cutAtLast? a xs with
    | some (before, after) => some (x :: before, after)
    | none => if x = a then some ([], xs) else none

theorem cutAtLast?_of_not_mem (h : a ∉ xs) : cutAtLast? a xs = none := by
  induction xs with
  | nil => rfl
  | cons x xs ih =>
    obtain ⟨hx, hxs⟩ := not_or.mp (mt List.mem_cons.mpr h)
    rw [cutAtLast?, ih hxs]
    exact if_neg (Ne.symm hx)

theorem cutAtLast?_append {after : List Char} (h : a ∉ after) (before : List Char) :
    cutAtLast? a (before ++ a :: after) = some (before, after) := by
  induction before with
  | nil =>
    rw [List.nil_append, cutAtLast?, cutAtLast?_of_not_mem h]
    exact if_pos rfl
  | cons x before ih => rw [List.cons_append, cutAtLast?, ih]

theorem exists_of_mem_last (h : a ∈ xs) :
    ∃ before after, xs = before ++ a :: after ∧ a ∉ after := by
  obtain ⟨after, before, hxs, hafter⟩ := List.eq_append_cons_of_mem (List.mem_reverse.mpr h)
  refine ⟨before.reverse, after.reverse, ?_, mt List.mem_reverse.mp hafter⟩
  rw [← List.reverse_reverse xs, hxs]
  simp

end DataRepository.Text
