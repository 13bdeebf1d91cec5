import DataRepository.Proofs.Json.Weight

/-! # Measures under updates

What depth, weight and normal form are of lists and of members that have been
inserted, replaced or erased. Depth and normal form speak of every item alone, so
they follow from membership; the weight is a sum. -/
namespace DataRepository

namespace Json

/-! ## Depth and normal form -/

theorem depthItems_le_iff {items : List Json} {d : Nat} :
    depthItems items ≤ d ↔ ∀ j ∈ items, j.depth ≤ d := by
  induction items with
  | nil => simp [depthItems]
  | cons j rest ih => simp only [depthItems, Nat.max_le, ih, List.forall_mem_cons]

theorem depthMembers_le_iff {members : Members} {d : Nat} :
    depthMembers members ≤ d ↔ ∀ m ∈ members, m.2.depth ≤ d := by
  induction members with
  | nil => simp [depthMembers]
  | cons m rest ih =>
    obtain ⟨n, j⟩ := m
    simp only [depthMembers, depthMember, Nat.max_le, ih, List.forall_mem_cons]

theorem canonicalItems_iff {items : List Json} :
    CanonicalItems items ↔ ∀ j ∈ items, j.Canonical := by
  induction items with
  | nil => simp [CanonicalItems]
  | cons j rest ih => simp [CanonicalItems, ih]

theorem canonicalMembers_iff {members : Members} :
    CanonicalMembers members ↔ ∀ m ∈ members, m.2.Canonical := by
  induction members with
  | nil => simp [CanonicalMembers]
  | cons m rest ih =>
    obtain ⟨n, j⟩ := m
    simp only [CanonicalMembers, CanonicalMember, ih, List.forall_mem_cons]

/-! ## Weight of items -/

variable {w : Double → Nat}

theorem weighItems_append (xs ys : List Json) :
    weighItems w (xs ++ ys) = weighItems w xs + weighItems w ys := by
  induction xs with
  | nil => simp [weighItems]
  | cons j rest ih => simp only [List.cons_append, weighItems, ih]; omega

theorem weighItems_reverse (xs : List Json) : weighItems w xs.reverse = weighItems w xs := by
  induction xs with
  | nil => rfl
  | cons j rest ih => simp only [List.reverse_cons, weighItems_append, weighItems, ih]; omega

theorem weighItems_replicate (n : Nat) (j : Json) :
    weighItems w (List.replicate n j) = n * (1 + j.weigh w) := by
  induction n with
  | zero => simp [weighItems]
  | succ n ih =>
    rw [List.replicate_succ, weighItems, ih, Nat.succ_mul]
    omega

theorem weighItems_set {xs : List Json} {i : Nat} {old : Json} (h : xs[i]? = some old) (j : Json) :
    weighItems w (xs.set i j) + old.weigh w = weighItems w xs + j.weigh w := by
  induction xs generalizing i with
  | nil => simp at h
  | cons x rest ih =>
    cases i with
    | zero =>
      obtain rfl : x = old := by simpa using h
      simp only [List.set_cons_zero, weighItems]
      omega
    | succ i =>
      have := ih (i := i) (by simpa using h)
      simp only [List.set_cons_succ, weighItems]
      omega

theorem weighItems_eraseIdx_le (xs : List Json) (i : Nat) :
    weighItems w (xs.eraseIdx i) ≤ weighItems w xs := by
  induction xs generalizing i with
  | nil => simp
  | cons x rest ih =>
    cases i with
    | zero => simp only [List.eraseIdx_cons_zero, weighItems]; omega
    | succ i =>
      have := ih i
      simp only [List.eraseIdx_cons_succ, weighItems]
      omega

end Json

open Json

namespace Members

variable {w : Double → Nat} {name : String} {v : Json} {ms : Members}

/-! ## Depth and normal form of members -/

theorem mem_of_get? (h : get? name ms = some v) : (name, v) ∈ ms := by
  induction ms with
  | nil => cases h
  | cons m rest ih =>
    obtain ⟨n, u⟩ := m
    by_cases hn : n = name
    · subst hn
      obtain rfl : u = v := by simpa [get?] using h
      exact List.mem_cons_self
    · rw [get?, if_neg hn] at h
      exact List.mem_cons_of_mem _ (ih h)

theorem depth_le_of_get? (h : get? name ms = some v) : v.depth ≤ depthMembers ms :=
  depthMembers_le_iff.mp (Nat.le_refl _) _ (mem_of_get? h)

theorem depthMembers_insert_le : depthMembers (insert name v ms) ≤ max (depthMembers ms) v.depth := by
  refine depthMembers_le_iff.mpr fun m hm => ?_
  rcases mem_insert hm with rfl | hm
  · exact Nat.le_max_right _ _
  · exact Nat.le_trans (depthMembers_le_iff.mp (Nat.le_refl _) m hm) (Nat.le_max_left _ _)

theorem depthMembers_erase_le : depthMembers (erase name ms) ≤ depthMembers ms :=
  depthMembers_le_iff.mpr fun m hm =>
    depthMembers_le_iff.mp (Nat.le_refl _) m (mem_of_mem_erase hm)

theorem canonical_of_get? (h : get? name ms = some v) (hms : CanonicalMembers ms) : v.Canonical :=
  canonicalMembers_iff.mp hms _ (mem_of_get? h)

theorem canonicalMembers_insert (hms : CanonicalMembers ms) (hv : v.Canonical) :
    CanonicalMembers (insert name v ms) := by
  refine canonicalMembers_iff.mpr fun m hm => ?_
  rcases mem_insert hm with rfl | hm
  · exact hv
  · exact canonicalMembers_iff.mp hms m hm

theorem canonicalMembers_erase (hms : CanonicalMembers ms) : CanonicalMembers (erase name ms) :=
  canonicalMembers_iff.mpr fun m hm => canonicalMembers_iff.mp hms m (mem_of_mem_erase hm)

/-! ## Weight of members -/

/-- What the member of this name weighs, if there is one. -/
def weighAt (w : Double → Nat) (name : String) (ms : Members) : Nat :=
  match get? name ms with
  | some v => 1 + weighMember w (name, v)
  | none => 0

theorem weighMembers_insert (w : Double → Nat) (name : String) (v : Json) (h : Ascending ms) :
    weighMembers w (insert name v ms) + weighAt w name ms =
      weighMembers w ms + (1 + weighMember w (name, v)) := by
  induction ms with
  | nil => simp [insert, weighAt, get?, weighMembers]
  | cons m rest ih =>
    obtain ⟨n, u⟩ := m
    by_cases hlt : name < n
    · rw [weighAt, get?_eq_none_of_lt hlt h, insert, if_pos hlt]
      simp only [weighMembers]
      omega
    · by_cases hn : n = name
      · subst hn
        simp only [insert, hlt, if_false, if_true, weighAt, get?, weighMembers]
        omega
      · have ih := ih (List.pairwise_cons.mp h).2
        simp only [insert, hlt, hn, if_false, weighAt, get?, weighMembers] at ih ⊢
        omega

theorem weighMembers_erase (w : Double → Nat) (name : String) (ms : Members) :
    weighMembers w (erase name ms) + weighAt w name ms = weighMembers w ms := by
  induction ms with
  | nil => rfl
  | cons m rest ih =>
    obtain ⟨n, u⟩ := m
    by_cases hn : n = name
    · subst hn
      simp only [erase, if_true, weighAt, get?, weighMembers]
      omega
    · simp only [erase, hn, if_false, weighAt, get?, weighMembers] at ih ⊢
      omega

/-! ## Members as they are read -/

theorem mem_insertNew {m : String × Json} (h : m ∈ insertNew name v ms) :
    m = (name, v) ∨ m ∈ ms := by
  induction ms with
  | nil => simpa [insertNew] using h
  | cons a rest ih =>
    obtain ⟨n, u⟩ := a
    by_cases hlt : name < n
    · simpa [insertNew, hlt] using h
    · by_cases hn : n = name
      · subst hn
        simp only [insertNew, hlt, if_false, if_true] at h
        exact .inr h
      · simp only [insertNew, hlt, hn, if_false, List.mem_cons] at h
        rcases h with h | h
        · exact .inr (h ▸ List.mem_cons_self)
        · exact (ih h).imp_right (List.mem_cons_of_mem _)

theorem ascending_insertNew (h : Ascending ms) : Ascending (insertNew name v ms) := by
  induction ms with
  | nil => simp [insertNew, Ascending]
  | cons a rest ih =>
    obtain ⟨n, u⟩ := a
    obtain ⟨hm, hr⟩ := List.pairwise_cons.mp h
    by_cases hlt : name < n
    · simp only [insertNew, hlt, if_true]
      refine List.pairwise_cons.mpr ⟨fun m hin => ?_, h⟩
      rcases List.mem_cons.mp hin with rfl | hin
      · exact hlt
      · exact String.lt_trans hlt (hm m hin)
    · by_cases hn : n = name
      · simpa [insertNew, hlt, hn] using h
      · simp only [insertNew, hlt, hn, if_false]
        refine List.pairwise_cons.mpr ⟨fun m hin => ?_, ih hr⟩
        rcases mem_insertNew hin with rfl | hin
        · rcases String.le_total name n with hle | hle
          · exact absurd (String.le_antisymm hle (String.not_lt.mp hlt)) (Ne.symm hn)
          · by_cases hgt : n < name
            · exact hgt
            · exact absurd (String.le_antisymm hle (String.not_lt.mp hgt)) hn
        · exact hm m hin

theorem weighMembers_insertNew_le :
    weighMembers w (insertNew name v ms) ≤ weighMembers w ms + (1 + weighMember w (name, v)) := by
  induction ms with
  | nil => simp [insertNew, weighMembers]
  | cons a rest ih =>
    obtain ⟨n, u⟩ := a
    by_cases hlt : name < n
    · simp only [insertNew, hlt, if_true, weighMembers]
      omega
    · by_cases hn : n = name
      · subst hn
        simp only [insertNew, hlt, if_false, if_true, weighMembers]
        omega
      · simp only [insertNew, hlt, hn, if_false, weighMembers]
        omega

/-- What `ofReversed` makes of members: they ascend, each of them was read, and they weigh no more
than all that was read. -/
theorem ofReversed_spec (read : List (String × Json)) :
    Ascending (ofReversed read) ∧ (∀ m ∈ ofReversed read, m ∈ read) ∧
      weighMembers w (ofReversed read) ≤ weighMembers w read := by
  suffices hfold : ∀ (acc : Members), Ascending acc →
      let ms := read.foldl (fun acc m => insertNew m.1 m.2 acc) acc
      Ascending ms ∧ (∀ m ∈ ms, m ∈ read ∨ m ∈ acc) ∧
        weighMembers w ms ≤ weighMembers w read + weighMembers w acc by
    obtain ⟨hasc, hmem, hweight⟩ := hfold [] List.Pairwise.nil
    exact ⟨hasc, fun m hm => by simpa using hmem m hm, hweight⟩
  induction read with
  | nil => exact fun acc hacc => ⟨hacc, fun m hm => .inr hm, by simp [weighMembers]⟩
  | cons m rest ih =>
    intro acc hacc
    obtain ⟨n, v⟩ := m
    obtain ⟨hasc, hmem, hweight⟩ := ih (insertNew n v acc) (ascending_insertNew hacc)
    refine ⟨hasc, fun m' hm' => ?_, ?_⟩
    · rcases hmem m' hm' with hm' | hm'
      · exact .inl (List.mem_cons_of_mem _ hm')
      · rcases mem_insertNew hm' with rfl | hm'
        · exact .inl List.mem_cons_self
        · exact .inr hm'
    · have hnew : weighMembers w (insertNew n v acc) ≤ _ := weighMembers_insertNew_le
      simp only [List.foldl_cons, weighMembers] at hweight ⊢
      omega

end Members

end DataRepository
