import DataRepository.Patch
import DataRepository.Proofs.Json.Measures

/-! # What a patch adds to a document

A merge patch makes a document no deeper than the deeper of the two and no heavier
than both together. An item can hang its value below the deepest place, so each
item deepens the document by the depth of its value at most. Nothing else bounds
the patched document. -/
namespace DataRepository.Patch

open Json

/-- The weight of members that are all that is left of a document where another value is merged
into it. -/
abbrev membersWeight (ms : Members) : Nat := weighMembers (fun _ => 1) ms

/-! ## Merge patches -/

theorem membersWeight_membersOf_le (j : Json) : membersWeight (membersOf j) ≤ j.weight := by
  cases j with
  | object members =>
    simp only [membersOf, membersWeight, weight, weigh]
    omega
  | _ => exact Nat.zero_le _

theorem ascending_membersOf {j : Json} (h : j.Canonical) : Members.Ascending (membersOf j) := by
  cases j with
  | object members => exact h.1
  | _ => exact List.Pairwise.nil

theorem canonicalMembers_membersOf {j : Json} (h : j.Canonical) : CanonicalMembers (membersOf j) := by
  cases j with
  | object members => exact h.2
  | _ => trivial

theorem depthMembers_membersOf_lt {j : Json} {d : Nat} (hd : 0 < d) (h : j.depth ≤ d) :
    depthMembers (membersOf j) < d := by
  cases j with
  | object members => exact h
  | _ => exact hd

mutual
theorem merge_grown : (t p : Json) → t.Canonical → p.Canonical →
    (merge t p).depth ≤ max t.depth p.depth ∧
      (merge t p).weight ≤ membersWeight (membersOf t) + p.weight ∧ (merge t p).Canonical
  | t, .object ps => by
    intro ht hp
    obtain ⟨hdepth, hweight, hascending, hcanonical⟩ :=
      mergeMembers_grown (membersOf t) ps (ascending_membersOf ht) (canonicalMembers_membersOf ht) hp.2
    have hlt : depthMembers (membersOf t) < max t.depth (Json.object ps).depth :=
      depthMembers_membersOf_lt (Nat.lt_of_lt_of_le (Nat.succ_pos _) (Nat.le_max_right _ _))
        (Nat.le_max_left _ _)
    refine ⟨?_, ?_, hascending, hcanonical⟩
    · simp only [merge, depth] at hlt ⊢
      omega
    · simp only [merge, weight, weigh, membersWeight] at hweight ⊢
      omega
  | t, .null => fun _ hp => ⟨Nat.le_max_right _ _, Nat.le_add_left _ _, hp⟩
  | t, .bool _ => fun _ hp => ⟨Nat.le_max_right _ _, Nat.le_add_left _ _, hp⟩
  | t, .number _ => fun _ hp => ⟨Nat.le_max_right _ _, Nat.le_add_left _ _, hp⟩
  | t, .string _ => fun _ hp => ⟨Nat.le_max_right _ _, Nat.le_add_left _ _, hp⟩
  | t, .array _ => fun _ hp => ⟨Nat.le_max_right _ _, Nat.le_add_left _ _, hp⟩
termination_by structural _ p => p
theorem mergeMembers_grown : (ms : Members) → (ps : List (String × Json)) → Members.Ascending ms →
    CanonicalMembers ms → CanonicalMembers ps →
    depthMembers (mergeMembers ms ps) ≤ max (depthMembers ms) (depthMembers ps) ∧
      membersWeight (mergeMembers ms ps) ≤ membersWeight ms + membersWeight ps ∧
      Members.Ascending (mergeMembers ms ps) ∧ CanonicalMembers (mergeMembers ms ps)
  | ms, [] => fun hascending hcanonical _ =>
    ⟨Nat.le_max_left _ _, Nat.le_add_right _ _, hascending, hcanonical⟩
  | ms, m :: ps => by
    intro hascending hms hps
    obtain ⟨hdepth, hweight, hascending, hcanonical⟩ := mergeMember_grown ms m hascending hms hps.1
    obtain ⟨hdepth', hweight', hascending', hcanonical'⟩ :=
      mergeMembers_grown (mergeMember ms m) ps hascending hcanonical hps.2
    refine ⟨?_, ?_, hascending', hcanonical'⟩
    · simp only [mergeMembers, depthMembers]
      omega
    · simp only [mergeMembers, membersWeight, weighMembers] at hweight hweight' ⊢
      omega
termination_by structural _ ps => ps
theorem mergeMember_grown : (ms : Members) → (m : String × Json) → Members.Ascending ms →
    CanonicalMembers ms → CanonicalMember m →
    depthMembers (mergeMember ms m) ≤ max (depthMembers ms) (depthMember m) ∧
      membersWeight (mergeMember ms m) ≤ membersWeight ms + (1 + weighMember (fun _ => 1) m) ∧
      Members.Ascending (mergeMember ms m) ∧ CanonicalMembers (mergeMember ms m)
  | ms, (name, p) => by
    intro hascending hms hp
    -- What is merged into counts by its members alone, since a value that is no object is replaced.
    by_cases hnull : p = .null
    · subst hnull
      have herase := Members.weighMembers_erase (fun _ => 1) name ms
      simp only [mergeMember, if_true]
      refine ⟨?_, ?_, Members.ascending_erase hascending, Members.canonicalMembers_erase hms⟩
      · exact Nat.le_trans Members.depthMembers_erase_le (Nat.le_max_left _ _)
      · simp only [membersWeight]
        omega
    · have hold : ((Members.get? name ms).getD .null).Canonical ∧
          ((Members.get? name ms).getD .null).depth ≤ depthMembers ms ∧
          membersWeight (membersOf ((Members.get? name ms).getD .null)) ≤
            Members.weighAt (fun _ => 1) name ms := by
        unfold Members.weighAt
        cases hget : Members.get? name ms with
        | none => exact ⟨trivial, Nat.zero_le _, Nat.zero_le _⟩
        | some old =>
          refine ⟨Members.canonical_of_get? hget hms, Members.depth_le_of_get? hget, ?_⟩
          have hle := membersWeight_membersOf_le old
          simp only [Option.getD_some, weighMember, weight] at hle ⊢
          omega
      obtain ⟨hcanonical, hdepth, hweight⟩ := hold
      obtain ⟨hdepth', hweight', hcanonical'⟩ := merge_grown _ p hcanonical hp
      have hinsert := Members.weighMembers_insert (fun _ => 1) name
        (merge ((Members.get? name ms).getD .null) p) hascending
      simp only [mergeMember, hnull, if_false]
      refine ⟨?_, ?_, Members.ascending_insert hascending,
        Members.canonicalMembers_insert hms hcanonical'⟩
      · refine Nat.le_trans Members.depthMembers_insert_le ?_
        simp only [depthMember]
        omega
      · simp only [membersWeight, weighMember, weight] at hinsert hweight hweight' ⊢
        omega
termination_by structural _ m => m
end

/-! ## Changes at a place -/

/-- A document that has been changed: at most `d` deeper and `c` heavier, and in normal form. -/
structure Grown (d c : Nat) (j j' : Json) : Prop where
  depth : j'.depth ≤ j.depth + d
  weight : j'.weight ≤ j.weight + c
  canonical : j'.Canonical

/-- An array with at most one new item. -/
theorem array_grown {items items' : List Json} {v : Json} {d c : Nat}
    (hmem : ∀ i ∈ items', i ∈ items ∨ (i = v ∧ v.depth ≤ depthItems items + d ∧ v.Canonical))
    (hweight : weighItems (fun _ => 1) items' ≤ weighItems (fun _ => 1) items + c)
    (hitems : CanonicalItems items) : Grown d c (.array items) (.array items') := by
  have hall := depthItems_le_iff.mp (Nat.le_refl (depthItems items))
  have hdepth : depthItems items' ≤ depthItems items + d := by
    refine depthItems_le_iff.mpr fun i hi => ?_
    rcases hmem i hi with hi | ⟨rfl, hd, -⟩
    · exact Nat.le_add_right_of_le (hall i hi)
    · exact hd
  refine ⟨?_, ?_, canonicalItems_iff.mpr fun i hi => ?_⟩
  · simp only [depth]
    omega
  · simp only [weight, weigh]
    omega
  · rcases hmem i hi with hi | ⟨rfl, -, hv⟩
    · exact canonicalItems_iff.mp hitems i hi
    · exact hv

/-- An object with one member put in, in place of the one that may be there. -/
theorem object_grown {members : Members} {name : String} {v : Json} {d c : Nat}
    (hmembers : (Json.object members).Canonical) (hv : v.Canonical)
    (hdepth : v.depth ≤ depthMembers members + d)
    (hweight : 1 + weighMember (fun _ => 1) (name, v) ≤ Members.weighAt (fun _ => 1) name members + c) :
    Grown d c (.object members) (.object (Members.insert name v members)) := by
  have hinsert := Members.weighMembers_insert (fun _ => 1) name v hmembers.1
  have hle : depthMembers (Members.insert name v members) ≤ _ := Members.depthMembers_insert_le
  refine ⟨?_, ?_, Members.ascending_insert hmembers.1, Members.canonicalMembers_insert hmembers.2 hv⟩
  · simp only [depth]
    omega
  · simp only [weight, weigh]
    omega

/-- A change of the members' or items' document grows it as the change grows what it is made to. -/
theorem update?_grown {change : Json → Option Json} {d c : Nat}
    (hchange : ∀ j j', j.Canonical → change j = some j' → Grown d c j j') {ts : List String} {j j' : Json}
    (hj : j.Canonical) (h : update? change ts j = some j') : Grown d c j j' := by
  fun_induction update? change ts j generalizing j' with
  | case1 j => exact hchange j j' hj h
  | case2 t ts members ih =>
    simp only [Option.bind_eq_bind, Option.bind_eq_some_iff, Option.pure_def, Option.some.injEq] at h
    obtain ⟨old, hold, v, hv, rfl⟩ := h
    have hgrown := ih old (Members.canonical_of_get? hold hj.2) hv
    have holdDepth := Members.depth_le_of_get? hold
    have hdepth := hgrown.depth
    have hweight := hgrown.weight
    refine object_grown hj hgrown.canonical (by omega) ?_
    simp only [Members.weighAt, hold, weighMember, weight] at hweight ⊢
    omega
  | case3 t ts items ih =>
    simp only [Option.bind_eq_bind, Option.bind_eq_some_iff, Option.pure_def, Option.some.injEq] at h
    obtain ⟨i, hi, old, hold, v, hv, rfl⟩ := h
    have hmem := List.mem_of_getElem? hold
    have hgrown := ih old (canonicalItems_iff.mp hj old hmem) hv
    have hset := weighItems_set (w := fun _ => 1) hold v
    have holdDepth := depthItems_le_iff.mp (Nat.le_refl (depthItems items)) old hmem
    have hdepth := hgrown.depth
    have hweight := hgrown.weight
    refine array_grown (v := v) (fun x hx => ?_) ?_ hj
    · rcases List.mem_or_eq_of_mem_set hx with hx | rfl
      · exact .inl hx
      · exact .inr ⟨rfl, by omega, hgrown.canonical⟩
    · simp only [weight] at hweight
      omega
  | case4 => cases h

theorem addIn_grown {token : String} {v j j' : Json} (hv : v.Canonical) (hj : j.Canonical)
    (h : addIn token v j = some j') : Grown v.depth (stringWeight token + 2 + v.weight) j j' := by
  obtain ⟨members, rfl, rfl⟩ | ⟨items, n, rfl, -, -, rfl⟩ := cases_of_addIn h
  · refine object_grown hj hv (Nat.le_add_left _ _) ?_
    simp only [weighMember, weight]
    omega
  · refine array_grown (v := v) (fun i hi => ?_) ?_ hj
    · rcases List.mem_append.mp hi with hi | hi
      · exact .inl (List.mem_of_mem_take hi)
      · rcases List.mem_cons.mp hi with rfl | hi
        · exact .inr ⟨rfl, Nat.le_add_left _ _, hv⟩
        · exact .inl (List.mem_of_mem_drop hi)
    · have hsplit := weighItems_append (w := fun _ => 1) (items.take n) (items.drop n)
      rw [List.take_append_drop] at hsplit
      simp only [weighItems_append, weighItems, weight]
      omega

theorem removeIn_grown {token : String} {j j' : Json} (hj : j.Canonical)
    (h : removeIn token j = some j') : Grown 0 0 j j' := by
  obtain ⟨members, w, rfl, -, rfl⟩ | ⟨items, n, rfl, -, -, rfl⟩ := cases_of_removeIn h
  · have herase := Members.weighMembers_erase (fun _ => 1) token members
    refine ⟨?_, ?_, Members.ascending_erase hj.1, Members.canonicalMembers_erase hj.2⟩
    · exact Nat.succ_le_succ Members.depthMembers_erase_le
    · simp only [weight, weigh]
      omega
  · exact array_grown (v := .null) (fun i hi => .inl (List.mem_of_mem_eraseIdx hi))
      (weighItems_eraseIdx_le items n) hj

end DataRepository.Patch
