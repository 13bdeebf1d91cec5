import DataRepository.Proofs.Patch.Agreement
import DataRepository.Proofs.Patch.Updates

/-! # Changes that are taken back

`add` and `remove` read the last name of a path alike, so each takes back what the other
has done, in the container and therefore in the whole document. Two additions are left
out: `-` names the end of an array, and not the item that then stands there, and over a
member that is there `add` is a replacement. A `null` that was removed cannot be added
again, since to an item it is no value. -/
namespace DataRepository.Patch

variable {p last : String} {a b d d' v w : Json}

/-! ## Inside a container -/

/-- The value under the last name of a path, which is read as `add` and `remove` read it. -/
def held? (last : String) : Json → Option Json
  | .object members => Members.get? last members
  | .array items => Text.unsigned? last.toList >>= fun i => items[i]?
  | _ => none

/-- What is added is removed again, if it is not put at the end of an array or over a member. -/
theorem removeIn_of_addIn (ha : a.Canonical) (hend : ∀ items, a = .array items → last ≠ "-")
    (hnew : ∀ members, a = .object members → Members.get? last members = none)
    (h : addIn last v a = some b) : removeIn last b = some a := by
  obtain ⟨members, rfl, rfl⟩ | ⟨items, i, rfl, hi, hnamed, rfl⟩ := cases_of_addIn h
  · have herase := Members.erase_insert ha.1 (hnew members rfl) v
    simp [removeIn, Members.get?_insert, herase]
  · rw [if_neg (hend items rfl)] at hnamed
    have hbefore : (items.take i).length = i := List.length_take_of_le hi
    have hinside : i < (items.take i ++ v :: items.drop i).length := by
      rw [List.length_append, hbefore, List.length_cons]
      omega
    have herase : (items.take i ++ v :: items.drop i).eraseIdx i = items := by
      rw [List.eraseIdx_append_of_length_le (Nat.le_of_eq hbefore), hbefore, Nat.sub_self,
        List.eraseIdx_cons_zero, List.take_append_drop]
    simp only [removeIn, removeAt?, hnamed, Option.bind_eq_bind, Option.bind_some, if_pos hinside,
      herase, Option.pure_def]

/-- What is removed is added again. -/
theorem addIn_of_removeIn (ha : a.Canonical) (h : removeIn last a = some b) :
    ∃ w, held? last a = some w ∧ addIn last w b = some a := by
  obtain ⟨members, w, rfl, hw, rfl⟩ | ⟨items, i, rfl, hnumeral, hi, rfl⟩ := cases_of_removeIn h
  · exact ⟨w, hw, congrArg (some ∘ Json.object) (Members.insert_erase ha.1 hw)⟩
  · have hend : last ≠ "-" := by
      rintro rfl
      have hdash : Text.unsigned? "-".toList = none := by decide
      rw [hdash] at hnumeral
      cases hnumeral
    have hle : i ≤ (items.eraseIdx i).length := by
      rw [List.length_eraseIdx_of_lt hi]
      omega
    have hbefore : (items.take i).length = i := List.length_take_of_le (Nat.le_of_lt hi)
    have hinsert : (items.eraseIdx i).take i ++ items[i] :: (items.eraseIdx i).drop i = items := by
      rw [List.eraseIdx_eq_take_drop_succ, List.take_left' hbefore, List.drop_left' hbefore]
      simp
    refine ⟨items[i], by simp [held?, hnumeral, hi], ?_⟩
    simp [addIn, hend, insertAt?, hnumeral, hle, hinsert]

/-! ## Inside a document -/

/-- The value that `remove` takes out. -/
def taken? (p : String) (d : Json) : Option Json := do
  let names ← tokens? p
  let last ← names.getLast?
  at? names.dropLast d >>= held? last

/-- The path ends in `-` on an array. -/
def AtEnd (p : String) (d : Json) : Prop :=
  ∃ ts items, tokens? p = some (ts ++ ["-"]) ∧ at? ts d = some (.array items)

theorem removed_of_added (hd : d.Canonical) (hv : v ≠ .null) (hend : ¬ AtEnd p d)
    (hnew : ∀ l name, ¬ Addresses p (l ++ [.member name]) d)
    (h : patched d (.array [adding p v]) = .ok d') : patched d' (.array [removing p]) = .ok d := by
  obtain ⟨ts, last, htokens, hupdate⟩ := (patched_adding_eq_ok_iff hv).mp h
  refine patched_removing_eq_ok_iff.mpr ⟨ts, last, htokens, ?_⟩
  refine update?_of_inverse hd hupdate fun a b ha hab => ?_
  refine removeIn_of_addIn (canonical_of_at? hd ha) ?_ ?_ hab
  · rintro items rfl rfl
    exact hend ⟨ts, items, htokens, ha⟩
  · -- A member of the last name would be what the path names.
    rintro members rfl
    rw [Option.eq_none_iff_forall_ne_some]
    intro w hw
    obtain ⟨l, a, b, hl, hb, hchanged⟩ := update?_changedAt hupdate
    obtain rfl : Json.object members = a :=
      Option.some.inj (ha.symm.trans ((at?_of_steps? hl).trans hchanged.before))
    exact hnew l last ⟨_, htokens, steps?_append_eq_some_iff.mpr
      ⟨l, _, [.member last], hl, hchanged.before, steps?_cons rfl hw rfl, rfl⟩⟩

theorem added_of_removed (hd : d.Canonical) (h : patched d (.array [removing p]) = .ok d') :
    ∃ w, taken? p d = some w ∧ (w ≠ .null → patched d' (.array [adding p w]) = .ok d) := by
  obtain ⟨ts, last, htokens, hupdate⟩ := patched_removing_eq_ok_iff.mp h
  obtain ⟨a, b, ha, hb⟩ := exists_at?_of_update? hupdate
  obtain ⟨w, hw, -⟩ := addIn_of_removeIn (canonical_of_at? hd ha) hb
  refine ⟨w, by simp [taken?, htokens, ha, hw], fun hnull => ?_⟩
  refine (patched_adding_eq_ok_iff hnull).mpr ⟨ts, last, htokens, ?_⟩
  refine update?_of_inverse hd hupdate fun a' b' ha' hb' => ?_
  obtain rfl : a = a' := Option.some.inj (ha.symm.trans ha')
  obtain ⟨w', hw', hadd⟩ := addIn_of_removeIn (canonical_of_at? hd ha) hb'
  obtain rfl : w = w' := Option.some.inj (hw.symm.trans hw')
  exact hadd

/-- **`add` and `remove` take each other back**: what is added beside what is there can be removed,
and what is removed can be added, and the document is as it was. -/
theorem add_remove_inverse (hd : d.Canonical) (p : String) :
    (∀ v d', v ≠ .null → ¬ AtEnd p d → (∀ l name, ¬ Addresses p (l ++ [.member name]) d) →
      patched d (.array [adding p v]) = .ok d' → patched d' (.array [removing p]) = .ok d) ∧
    ∀ d', patched d (.array [removing p]) = .ok d' →
      ∃ w, taken? p d = some w ∧ (w ≠ .null → patched d' (.array [adding p w]) = .ok d) :=
  ⟨fun _ _ hv hend hnew h => removed_of_added hd hv hend hnew h, fun _ h => added_of_removed hd h⟩

/-- An item of a list below a member, at an index with a plus sign, which both read alike. -/
theorem add_remove_inverse_padded :
    let inner : Json := .object [("~", .bool true)]
    let d : Json := .object [("a", .array [.null, inner]), ("b", .null)]
    let more : Json := .object [("a", .array [.null, .string "x", inner]), ("b", .null)]
    let less : Json := .object [("a", .array [.null]), ("b", .null)]
    d.Canonical ∧ ¬ AtEnd "/a/+1" d ∧ (∀ l name, ¬ Addresses "/a/+1" (l ++ [.member name]) d) ∧
      (patched d (.array [adding "/a/+1" (.string "x")]) = .ok more ∧
        patched more (.array [removing "/a/+1"]) = .ok d) ∧
      (patched d (.array [removing "/a/+1"]) = .ok less ∧ taken? "/a/+1" d = some inner ∧
        patched less (.array [adding "/a/+1" inner]) = .ok d) := by
  intro inner d more less
  have hd : d.Canonical :=
    ⟨by decide, ⟨trivial, ⟨by decide, trivial, trivial⟩, trivial⟩, trivial, trivial⟩
  have htokens : tokens? "/a/+1" = some ["a", "+1"] := by decide +kernel
  have hend : ¬ AtEnd "/a/+1" d := by
    rintro ⟨ts, items, hnames, -⟩
    have happend : ["a"] ++ ["+1"] = ts ++ ["-"] := Option.some.inj (htokens.symm.trans hnames)
    obtain ⟨-, hlast⟩ := List.append_inj' happend rfl
    exact absurd hlast (by decide)
  have hnew : ∀ l name, ¬ Addresses "/a/+1" (l ++ [.member name]) d := by
    rintro l name ⟨ts, hnames, hsteps⟩
    obtain rfl : ["a", "+1"] = ts := Option.some.inj (htokens.symm.trans hnames)
    cases hsteps
  have hadded : patched d (.array [adding "/a/+1" (.string "x")]) = .ok more := rfl
  have hremoved : patched d (.array [removing "/a/+1"]) = .ok less := rfl
  have htaken : taken? "/a/+1" d = some inner := rfl
  obtain ⟨hremove, hadd⟩ := add_remove_inverse hd "/a/+1"
  obtain ⟨w, hw, hback⟩ := hadd less hremoved
  obtain rfl : inner = w := Option.some.inj (htaken.symm.trans hw)
  exact ⟨hd, hend, hnew, ⟨hadded, hremove _ _ (by decide) hend hnew hadded⟩, hremoved, htaken,
    hback (by decide)⟩

end DataRepository.Patch
