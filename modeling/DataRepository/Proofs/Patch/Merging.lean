import DataRepository.Proofs.Patch.Growth

/-! # Merging twice

Every member of a merge patch has a name of its own, so what stands under a name after
the merge depends on what stood there and on the one member of that name
(`get?_mergeMembers`). A member that removes leaves nothing to remove, and a member with
a value is merged into what the first merge left: by induction that changes nothing. -/
namespace DataRepository.Patch

open Json

/-! ## Look-up after a merge -/

/-- What a member of a merge patch makes of the value that stands under its name. -/
def mergeValue (old : Option Json) (patch : Json) : Option Json :=
  if patch = .null then none else some (merge (old.getD .null) patch)

variable {ms : Members} {name : String}

theorem ascending_mergeMember (h : Members.Ascending ms) (m : String × Json) :
    Members.Ascending (mergeMember ms m) := by
  obtain ⟨n, p⟩ := m
  unfold mergeMember
  split
  · exact Members.ascending_erase h
  · exact Members.ascending_insert h

theorem get?_mergeMember (h : Members.Ascending ms) (other : String) (p : Json) :
    Members.get? other (mergeMember ms (name, p)) =
      if other = name then mergeValue (Members.get? name ms) p else Members.get? other ms := by
  by_cases hnull : p = .null
  · rw [mergeMember, if_pos hnull, mergeValue, if_pos hnull]
    split
    · rename_i he
      rw [he, Members.get?_erase h]
    · rename_i hne
      rw [Members.get?_erase_of_ne hne]
  · rw [mergeMember, if_neg hnull, mergeValue, if_neg hnull, Members.get?_insert]

theorem ascending_mergeMembers (h : Members.Ascending ms) (ps : List (String × Json)) :
    Members.Ascending (mergeMembers ms ps) := by
  induction ps generalizing ms with
  | nil => exact h
  | cons m ps ih => exact ih (ascending_mergeMember h m)

/-- **A merge patch decides about the names of its members and about no other.** -/
theorem get?_mergeMembers (h : Members.Ascending ms) {ps : Members} (hps : Members.Ascending ps)
    (other : String) :
    Members.get? other (mergeMembers ms ps) =
      match Members.get? other ps with
      | some p => mergeValue (Members.get? other ms) p
      | none => Members.get? other ms := by
  induction ps generalizing ms with
  | nil => rfl
  | cons m ps ih =>
    obtain ⟨n, p⟩ := m
    obtain ⟨hleast, hrest⟩ := List.pairwise_cons.mp hps
    rw [mergeMembers, ih (ascending_mergeMember h (n, p)) hrest, get?_mergeMember h]
    by_cases he : n = other
    · subst he
      have habsent : Members.get? n ps = none :=
        Members.get?_eq_none_of_not_mem fun m hm he => String.lt_irrefl _ (he ▸ hleast m hm)
      simp only [habsent, Members.get?, if_true]
    · simp only [Members.get?, if_neg he, if_neg (Ne.symm he)]

/-! ## Merging twice -/

/-- The patch may be applied twice to any document. -/
def Repeatable (p : Json) : Prop := ∀ t : Json, t.Canonical → merge (merge t p) p = merge t p

theorem mergeValue_mergeValue {old : Option Json} {p : Json} (hold : (old.getD .null).Canonical)
    (hp : Repeatable p) : mergeValue (mergeValue old p) p = mergeValue old p := by
  unfold mergeValue
  split
  · rfl
  · rw [Option.getD_some, hp _ hold]

theorem mergeMembers_mergeMembers (hms : Members.Ascending ms) (hcanonical : CanonicalMembers ms)
    {ps : Members} (hps : Members.Ascending ps) (hvalues : ∀ m ∈ ps, Repeatable m.2) :
    mergeMembers (mergeMembers ms ps) ps = mergeMembers ms ps := by
  have honce := ascending_mergeMembers hms ps
  refine Members.eq_of_get? (ascending_mergeMembers honce ps) honce fun other => ?_
  rw [get?_mergeMembers honce hps, get?_mergeMembers hms hps]
  cases hp : Members.get? other ps with
  | none => rfl
  | some p =>
    have hold : ((Members.get? other ms).getD .null).Canonical := by
      cases hget : Members.get? other ms with
      | none => trivial
      | some old => exact Members.canonical_of_get? hget hcanonical
    exact mergeValue_mergeValue hold (hvalues _ (Members.mem_of_get? hp))

mutual
/-- **To apply a merge patch twice is to apply it once.** -/
theorem repeatable : (p : Json) → p.Canonical → Repeatable p
  | .object ps => by
    intro hp t ht
    simp only [merge]
    exact congrArg Json.object (mergeMembers_mergeMembers (ascending_membersOf ht)
      (canonicalMembers_membersOf ht) hp.1 (repeatable_members ps hp.2))
  | .null => fun _ _ _ => rfl
  | .bool _ => fun _ _ _ => rfl
  | .number _ => fun _ _ _ => rfl
  | .string _ => fun _ _ _ => rfl
  | .array _ => fun _ _ _ => rfl
termination_by structural p => p
theorem repeatable_members : (ps : List (String × Json)) → CanonicalMembers ps →
    ∀ m ∈ ps, Repeatable m.2
  | [] => by simp
  | m :: ps => by
    intro hps
    exact List.forall_mem_cons.mpr ⟨repeatable_member m hps.1, repeatable_members ps hps.2⟩
termination_by structural ps => ps
theorem repeatable_member : (m : String × Json) → CanonicalMember m → Repeatable m.2
  | (_, p) => repeatable p
termination_by structural m => m
end

/-- A patch that is not a list of items may be applied again to what it has made. -/
theorem patched_again {t t' p : Json} (ht : t.Canonical) (hp : p.Canonical)
    (hitems : ∀ items, p ≠ .array items) (h : patched t p = .ok t') : patched t' p = .ok t' := by
  cases p with
  | object members =>
    have hmerged : merge t (.object members) = t' := Except.ok.inj h
    subst hmerged
    exact congrArg Except.ok (repeatable _ hp t ht)
  | array items => exact absurd rfl (hitems items)
  | _ => cases h

end DataRepository.Patch
