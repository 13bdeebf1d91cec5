import DataRepository.Proofs.Patch.Merging

/-! # Merged documents by paths

Down through objects a merged document follows its patch as long as the patch goes on, and
the end of the patch on the way decides what stands below: nothing where it ends at a
`null`, the patch's own value where it ends at another value, and what the target holds
where it has no member (`descend?_merged`). A target that is no object counts as one
without members, so it makes no difference whether the patch meets an object, another
value or nothing there. -/
namespace DataRepository.Patch

open Json

variable {t : Json} {ps : Members}

/-! ## Walks -/

/-- The value to which members' names lead down through objects. -/
def descend? : List String → Json → Option Json
  | [], j => some j
  | name :: names, .object members => Members.get? name members >>= descend? names
  | _ :: _, _ => none

/-- How a patch ends on the way along some names. -/
inductive PatchEnd where
  | removal
  | value (w : Json) (rest : List String)
  | absent
  | object

/-- Walks down the members of a patch: to the first `null`, the first other value that is no object,
with the names that are left there, the first name without a member, or through objects to the end of
the names. -/
def walk : List String → Members → PatchEnd
  | [], _ => .object
  | name :: names, members =>
    match Members.get? name members with
    | none => .absent
    | some .null => .removal
    | some (.object inner) => walk names inner
    | some w => .value w names

/-- What a patch makes of a target, where the names lead, after its end on the way. -/
def Decides (names : List String) (t merged : Json) : PatchEnd → Prop
  | .removal => descend? names merged = none
  | .value w rest => descend? names merged = descend? rest w
  | .absent => descend? names merged = descend? names t
  | .object => ∃ members, descend? names merged = some (.object members)

/-- What is decided one step further down is decided here, where the same is found. -/
theorem Decides.cons {names names' : List String} {t t' merged merged' : Json} {e : PatchEnd}
    (h : Decides names t merged e) (hmerged : descend? names' merged' = descend? names merged)
    (htarget : e = .absent → descend? names' t' = descend? names t) : Decides names' t' merged' e := by
  cases e with
  | removal => exact hmerged.trans h
  | value w rest => exact hmerged.trans h
  | absent => exact hmerged.trans (h.trans (htarget rfl).symm)
  | object =>
    obtain ⟨members, hmembers⟩ := h
    exact ⟨members, hmerged.trans hmembers⟩

theorem descend?_cons (name : String) (names : List String) (d : Json) :
    descend? (name :: names) d = Members.get? name (membersOf d) >>= descend? names := by
  cases d <;> rfl

/-! ## Merging -/

theorem descend?_merge_of_none {name : String} (ht : t.Canonical) (hps : (Json.object ps).Canonical)
    (hp : Members.get? name ps = none) (names : List String) :
    descend? (name :: names) (merge t (.object ps)) = descend? (name :: names) t := by
  rw [descend?_cons, descend?_cons, merge, membersOf, get?_mergeMembers (ascending_membersOf ht) hps.1,
    hp]

theorem descend?_merge_of_some {name : String} {p : Json} (ht : t.Canonical)
    (hps : (Json.object ps).Canonical) (hp : Members.get? name ps = some p) (names : List String) :
    descend? (name :: names) (merge t (.object ps)) =
      mergeValue (Members.get? name (membersOf t)) p >>= descend? names := by
  rw [descend?_cons, merge, membersOf, get?_mergeMembers (ascending_membersOf ht) hps.1, hp]

/-- What a member of the patch is merged into is in normal form, also where nothing stands. -/
theorem canonical_old (ht : t.Canonical) (name : String) :
    ((Members.get? name (membersOf t)).getD .null).Canonical := by
  cases hget : Members.get? name (membersOf t) with
  | none => trivial
  | some old => exact Members.canonical_of_get? hget (canonicalMembers_membersOf ht)

/-- Where the patch has no member there are names left, and they lead to nothing where nothing
stands. -/
theorem descend?_old {name : String} {names : List String} {members : Members}
    (h : walk names members = .absent) :
    descend? (name :: names) t =
      descend? names ((Members.get? name (membersOf t)).getD .null) := by
  rw [descend?_cons]
  cases Members.get? name (membersOf t) with
  | some old => rfl
  | none =>
    cases names with
    | nil => cases h
    | cons next names => rfl

/-- **The end of the patch on the way decides.** The induction is on the names: each leads in the
merged document to what the patch's member of this name has made of the target's. -/
theorem decides_merge (ht : t.Canonical) (hps : (Json.object ps).Canonical) (names : List String) :
    Decides names t (merge t (.object ps)) (walk names ps) := by
  induction names generalizing t ps with
  | nil => exact ⟨_, rfl⟩
  | cons name names ih =>
    cases hp : Members.get? name ps with
    | none =>
      simp only [walk, hp]
      exact descend?_merge_of_none ht hps hp names
    | some p =>
      have hmerged := descend?_merge_of_some ht hps hp names
      cases p with
      | object inner =>
        have hinner := ih (canonical_old ht name) (Members.canonical_of_get? hp hps.2)
        simp only [walk, hp]
        exact hinner.cons hmerged descend?_old
      | _ =>
        -- The merge takes over what is no object, and `null` leaves nothing.
        simp only [walk, hp]
        exact hmerged

/-- A walk ends at the array to which the names lead in the patch. -/
theorem walk_of_descend?_array {names : List String} {items : List Json}
    (h : descend? names (.object ps) = some (.array items)) :
    walk names ps = .value (.array items) [] := by
  induction names generalizing ps with
  | nil => cases h
  | cons name names ih =>
    obtain ⟨p, hp, hdescend⟩ := Option.bind_eq_some_iff.mp h
    cases p with
    | object inner => simpa only [walk, hp] using ih hdescend
    | array items' =>
      cases names with
      | nil =>
        cases hdescend
        simp only [walk, hp]
      | cons next names => cases hdescend
    | _ => cases names <;> cases hdescend

/-- **A merged document by paths**: where members' names lead in it is decided by the end of the patch
on the way along them, and an array of the patch stands in it as it is. -/
theorem descend?_merged (ht : t.Canonical) (hps : (Json.object ps).Canonical) :
    ∃ merged, patched t (.object ps) = .ok merged ∧ ∀ names,
      Decides names t merged (walk names ps) ∧
        ∀ items, descend? names (.object ps) = some (.array items) →
          descend? names merged = some (.array items) := by
  refine ⟨merge t (.object ps), rfl, fun names => ?_⟩
  have hdecides := decides_merge ht hps names
  refine ⟨hdecides, fun items hitems => ?_⟩
  rw [walk_of_descend?_array hitems] at hdecides
  exact hdecides

/-- An object over a value that is none, with a `null` and an array of its own, and a member of the
target beside one that is removed. -/
theorem descend?_merged_nested :
    let t : Json := .object [("a", .bool true), ("b", .object [("c", .string "x"), ("d", .null)])]
    let list : Json := .array [.null, .object [("z", .null)]]
    let ps : Members := [("a", .object [("x", .null), ("y", list)]), ("b", .object [("c", .null)])]
    t.Canonical ∧ (Json.object ps).Canonical ∧ ∃ merged, patched t (.object ps) = .ok merged ∧
      descend? ["a", "x"] merged = none ∧ descend? ["a", "y"] merged = some list ∧
      descend? ["b", "d"] merged = some .null ∧
      ∃ members, descend? ["a"] merged = some (.object members) := by
  intro t list ps
  have ht : t.Canonical := ⟨by decide, trivial, ⟨by decide, trivial, trivial, trivial⟩, trivial⟩
  have hlist : list.Canonical := ⟨trivial, ⟨by decide, trivial, trivial⟩, trivial⟩
  have hps : (Json.object ps).Canonical :=
    ⟨by decide, ⟨by decide, trivial, hlist, trivial⟩, ⟨by decide, trivial, trivial⟩, trivial⟩
  obtain ⟨merged, hmerged, h⟩ := descend?_merged ht hps
  have hremoval : descend? ["a", "x"] merged = none := (h ["a", "x"]).1
  have harray : descend? ["a", "y"] merged = some list := (h ["a", "y"]).2 _ rfl
  have habsent : descend? ["b", "d"] merged = descend? ["b", "d"] t := (h ["b", "d"]).1
  have hobject : ∃ members, descend? ["a"] merged = some (.object members) := (h ["a"]).1
  exact ⟨ht, hps, merged, hmerged, hremoval, harray, habsent, hobject⟩

end DataRepository.Patch
