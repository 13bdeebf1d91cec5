import DataRepository.Proofs.Json.Measures
import DataRepository.Proofs.Patch.Places

/-! # Updates that follow one another

Names that lead to a place still lead to it after the place has been updated. So a second
update along the same names goes on with what the first one left: the two are one update
of the place (`update?_bind_update?`), and where the second takes back the first the whole
document is as it was (`update?_of_inverse`). -/
namespace DataRepository.Patch

variable {ts : List String} {s : Step} {change f g : Json → Option Json} {a d d' v : Json}

/-! ## Normal form -/

theorem canonical_of_value? (hd : d.Canonical) (h : s.value? d = some v) : v.Canonical := by
  cases s with
  | member name =>
    cases d with
    | object members => exact Members.canonical_of_get? h hd.2
    | _ => cases h
  | item i =>
    cases d with
    | array items => exact Json.canonicalItems_iff.mp hd v (List.mem_of_getElem? h)
    | _ => cases h

theorem canonical_of_at? (hd : d.Canonical) (h : at? ts d = some a) : a.Canonical := by
  induction ts generalizing d with
  | nil =>
    obtain rfl : d = a := by cases d <;> exact Option.some.inj h
    exact hd
  | cons t ts ih =>
    simp only [at?_cons, Option.bind_eq_bind, Option.bind_eq_some_iff] at h
    obtain ⟨s, -, v, hv, ha⟩ := h
    exact ih (canonical_of_value? hd hv) ha

/-- To put the value one step down that is there changes nothing. -/
theorem put_of_value? (hd : d.Canonical) (h : s.value? d = some v) : s.put v d = d := by
  cases s with
  | member name =>
    cases d with
    | object members => rw [Step.put, Members.insert_of_get? hd.1 h]
    | _ => cases h
  | item i =>
    cases d with
    | array items =>
      obtain ⟨hi, rfl⟩ := List.getElem?_eq_some_iff.mp h
      rw [Step.put, List.set_getElem_self]
    | _ => cases h

/-! ## Places after an update -/

/-- After an update the names lead along the same steps. -/
theorem steps?_of_update? (h : update? change ts d = some d') : steps? ts d' = steps? ts d := by
  induction ts generalizing d d' with
  | nil => rfl
  | cons t ts ih =>
    obtain ⟨s, v, w, hs, hv, hw, rfl⟩ := exists_of_update?_cons h
    simp only [steps?, step?_put, hs, value?_put hv w, hv, ih hw, Option.bind_eq_bind, Option.bind_some]

/-! ## Two updates of a place -/

/-- Two updates along the same names are one. -/
theorem update?_bind_update? (f g : Json → Option Json) (ts : List String) (d : Json) :
    (update? f ts d).bind (update? g ts) = update? (fun a => (f a).bind g) ts d := by
  induction ts generalizing d with
  | nil => rfl
  | cons t ts ih =>
    rw [update?_cons, update?_cons]
    cases hs : step? t d with
    | none => rfl
    | some s =>
      cases hv : s.value? d with
      | none => simp [hv]
      | some v =>
        have hinner := ih v
        cases hw : update? f ts v with
        | none => simp [hv, hw, ← hinner]
        | some w => simp [update?_cons, hs, hv, hw, ← hinner, step?_put, value?_put hv, put_put]

/-- An update that leaves its place as it is leaves the document as it is. -/
theorem update?_some (hd : d.Canonical) (h : at? ts d = some a) : update? some ts d = some d := by
  induction ts generalizing d with
  | nil => rfl
  | cons t ts ih =>
    simp only [at?_cons, Option.bind_eq_bind, Option.bind_eq_some_iff] at h
    obtain ⟨s, hs, v, hv, ha⟩ := h
    simp [update?_cons, hs, hv, ih (canonical_of_value? hd hv) ha, put_of_value? hd hv]

/-- **Where a second update takes back what the first has done to a place, it gives back the whole
document.** -/
theorem update?_of_inverse (hd : d.Canonical) (h : update? f ts d = some d')
    (hinverse : ∀ a b, at? ts d = some a → f a = some b → g b = some a) :
    update? g ts d' = some d := by
  obtain ⟨a, b, ha, hab⟩ := exists_at?_of_update? h
  calc update? g ts d'
      = (update? f ts d).bind (update? g ts) := by rw [h, Option.bind_some]
    _ = update? (fun a => (f a).bind g) ts d := update?_bind_update? f g ts d
    _ = update? some ts d := update?_congr fun a' ha' => by
        obtain rfl : a = a' := Option.some.inj (ha.symm.trans ha')
        rw [hab, Option.bind_some, hinverse a b ha hab]
    _ = some d := update?_some hd ha

end DataRepository.Patch
