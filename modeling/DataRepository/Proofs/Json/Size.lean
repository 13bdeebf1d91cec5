import DataRepository.Proofs.Json.Weight
import DataRepository.Proofs.Number.TextLength

/-! # Size and weight

The size of a document exceeds its weight by what its floating-point numbers take
beyond one byte each, and that is at most twenty-four bytes a number. -/
namespace DataRepository.Json

open Text (utf8)

/-! ## The bytes of a double -/

/-- The characters that numbers are written with. -/
def isNumeric (c : Char) : Bool := c.isDigit || c = '-' || c = '.' || c = 'e' || c = '+'

theorem utf8Size_of_isNumeric {c : Char} (h : isNumeric c) : c.utf8Size = 1 := by
  simp only [isNumeric, Bool.or_eq_true, decide_eq_true_eq] at h
  rcases h with (((h | rfl) | rfl) | rfl) | rfl
  · exact utf8Size_of_isDigit h
  all_goals decide

theorem isNumeric_toDigits {n : Nat} {c : Char} (h : c ∈ Nat.toDigits 10 n) : isNumeric c := by
  have hdigit := Nat.isDigit_of_mem_toDigits (by decide) (by decide) h
  simp [isNumeric, hdigit]

theorem isNumeric_positional {d : Decimal} {c : Char} (h : c ∈ d.positional ['.', '0']) :
    isNumeric c := by
  have hmarks : isNumeric '.' ∧ isNumeric '0' := by decide
  unfold Decimal.positional at h
  dsimp only at h
  split at h
  · simp only [List.mem_append, List.mem_replicate, List.mem_cons, List.not_mem_nil, or_false] at h
    rcases h with (h | ⟨-, rfl⟩) | rfl | rfl
    · exact isNumeric_toDigits h
    all_goals simp [hmarks]
  · split at h
    · simp only [List.mem_append, List.mem_cons] at h
      rcases h with h | rfl | h
      · exact isNumeric_toDigits (List.mem_of_mem_take h)
      · exact hmarks.1
      · exact isNumeric_toDigits (List.mem_of_mem_drop h)
    · simp only [List.mem_append, List.mem_cons, List.mem_replicate] at h
      rcases h with (rfl | rfl | ⟨-, rfl⟩) | h
      · exact hmarks.2
      · exact hmarks.1
      · exact hmarks.2
      · exact isNumeric_toDigits h

theorem isNumeric_scientific {d : Decimal} {c : Char} (h : c ∈ d.scientific) : isNumeric c := by
  have hmarks : isNumeric '.' ∧ isNumeric 'e' ∧ isNumeric '-' ∧ isNumeric '+' := by decide
  have hdigits : ∀ x ∈ d.digitChars, isNumeric x := fun x hx => isNumeric_toDigits hx
  unfold Decimal.scientific at h
  dsimp only at h
  rcases List.mem_append.mp h with h | h
  · split at h
    · cases h
    · rename_i x hx
      exact hdigits c (hx ▸ h)
    · rename_i x rest _ hx
      rw [hx] at hdigits
      simp only [List.mem_cons] at h
      rcases h with rfl | rfl | h
      · exact hdigits _ (by simp)
      · exact hmarks.1
      · exact hdigits c (by simp [h])
  · simp only [List.mem_cons] at h
    rcases h with rfl | rfl | h
    · exact hmarks.2.1
    · split <;> simp [hmarks]
    · exact isNumeric_toDigits h

theorem isNumeric_double {d : Double} {c : Char} (h : c ∈ d.chars) : isNumeric c := by
  have hmarks : isNumeric '-' ∧ isNumeric '.' ∧ isNumeric '0' := by decide
  have hsign : c ∈ (if d.isNegative then ['-'] else []) → isNumeric c := by
    intro hc
    split at hc
    · rw [List.mem_singleton.mp hc]
      exact hmarks.1
    · cases hc
  unfold Double.chars at h
  dsimp only at h
  split at h
  · simp only [List.mem_append, List.mem_cons, List.not_mem_nil, or_false] at h
    rcases h with h | rfl | rfl | rfl
    · exact hsign h
    all_goals simp [hmarks]
  · split at h
    · rcases List.mem_append.mp h with h | h
      · exact hsign h
      · exact isNumeric_positional h
    · rcases List.mem_append.mp h with h | h
      · exact hsign h
      · exact isNumeric_scientific h

theorem doubleSize_le (d : Double) : doubleSize d ≤ 25 := by
  rw [doubleSize, length_utf8_ascii fun c hc => utf8Size_of_isNumeric (isNumeric_double hc)]
  exact d.length_chars_le

/-! ## The bytes of a document -/

mutual
/-- How many floating-point numbers there are in the document. -/
def doubles : Json → Nat
  | .number (.double _) => 1
  | .array items => doublesItems items
  | .object members => doublesMembers members
  | _ => 0
termination_by structural j => j

def doublesItems : List Json → Nat
  | [] => 0
  | j :: rest => j.doubles + doublesItems rest
termination_by structural items => items

def doublesMembers : List (String × Json) → Nat
  | [] => 0
  | m :: rest => doublesMember m + doublesMembers rest
termination_by structural members => members

def doublesMember : String × Json → Nat
  | (_, j) => j.doubles
termination_by structural m => m
end

mutual
theorem weigh_le : (j : Json) → j.weigh doubleSize ≤ j.weigh (fun _ => 1) + 24 * j.doubles
  | .null => by decide
  | .bool true => by decide
  | .bool false => by decide
  | .number (.whole _) => Nat.le_add_right _ _
  | .number (.double d) => doubleSize_le d
  | .string _ => Nat.le_add_right _ _
  | .array items => by
    have hitems := weighItems_le items
    simp only [weigh, doubles]
    omega
  | .object members => by
    have hmembers := weighMembers_le members
    simp only [weigh, doubles]
    omega
termination_by structural j => j
theorem weighItems_le : (items : List Json) →
    weighItems doubleSize items ≤ weighItems (fun _ => 1) items + 24 * doublesItems items
  | [] => Nat.zero_le _
  | j :: rest => by
    have hj := weigh_le j
    have hrest := weighItems_le rest
    simp only [weighItems, doublesItems]
    omega
termination_by structural items => items
theorem weighMembers_le : (members : List (String × Json)) →
    weighMembers doubleSize members ≤ weighMembers (fun _ => 1) members + 24 * doublesMembers members
  | [] => Nat.zero_le _
  | m :: rest => by
    have hm := weighMember_le m
    have hrest := weighMembers_le rest
    simp only [weighMembers, doublesMembers]
    omega
termination_by structural members => members
theorem weighMember_le : (m : String × Json) →
    weighMember doubleSize m ≤ weighMember (fun _ => 1) m + 24 * doublesMember m
  | (name, j) => by
    have hj := weigh_le j
    simp only [weighMember, doublesMember]
    omega
termination_by structural m => m
end

/-- **The size of a document is its weight, but for its floating-point numbers.** -/
theorem size_le (j : Json) : j.size ≤ j.weight + 24 * j.doubles := by
  rw [size_eq_weigh]
  exact weigh_le j

end DataRepository.Json
