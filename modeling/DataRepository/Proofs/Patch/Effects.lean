import DataRepository.Proofs.Patch.Agreement
import DataRepository.Proofs.Patch.Updates

/-! # What an item changes

`replace` writes at the place that all names of its path lead to. `add` and `remove` write
in the container that the names before the last lead to: they give it a member or an item
more or less, and the other items of an array keep their order. `effect_of_patched` says
so of every item that is not refused, and that nothing else is changed: a value beside the
place that is written to is the same afterwards, and what stands on the way to it keeps
its members' names or its number of items. -/
namespace DataRepository.Patch

variable {ts : List String} {last : String} {l m : List Step} {s : Step}
  {change : Json → Option Json} {a b d d' v w : Json}

/-! ## Outside a place -/

/-- A value without what is below it. -/
inductive Shape where
  | scalar (value : Json)
  | array (length : Nat)
  | object (names : List String)
deriving DecidableEq

def shape : Json → Shape
  | .array items => .array items.length
  | .object members => .object (members.map Prod.fst)
  | j => .scalar j

theorem shape_put (hd : d.Canonical) (h : s.value? d = some v) (w : Json) :
    shape (s.put w d) = shape d := by
  cases s with
  | member name =>
    cases d with
    | object members => simp only [Step.put, shape, Members.map_fst_insert hd.1 h]
    | _ => cases h
  | item i =>
    cases d with
    | array items => simp only [Step.put, shape, List.length_set]
    | _ => cases h

/-- An update changes no shape outside its place. The induction follows the names to the place; the
way to `m` parts from it at once, one step further down, or ends before it. -/
theorem shape_of_update? (hd : d.Canonical) (h : update? change ts d = some d')
    (hl : steps? ts d = some l) (hm : ¬ l <+: m) :
    (valueAt? m d').map shape = (valueAt? m d).map shape := by
  induction ts generalizing d d' l m with
  | nil =>
    obtain rfl : [] = l := Option.some.inj hl
    exact absurd List.nil_prefix hm
  | cons t ts ih =>
    obtain ⟨s, v, w, hs, hv, hw, rfl⟩ := exists_of_update?_cons h
    obtain ⟨s', v', l', hs', hv', hl', rfl⟩ := exists_of_steps?_cons hl
    obtain rfl : s = s' := Option.some.inj (hs.symm.trans hs')
    obtain rfl : v = v' := Option.some.inj (hv.symm.trans hv')
    cases m with
    | nil =>
      -- On the way to the place a value is put under a name or at an index that was there.
      simp only [valueAt?, Option.map_some, shape_put hd hv]
    | cons next m =>
      by_cases hnext : next = s
      · subst hnext
        have hbelow : ¬ l' <+: m := fun hp => hm (List.cons_prefix_cons.mpr ⟨rfl, hp⟩)
        simpa [valueAt?, hv, value?_put hv w] using ih (canonical_of_value? hd hv) hw hl' hbelow
      · rw [valueAt?, valueAt?, value?_put_of_ne hnext w d]

/-- From `a` to `b` at the place to which the names lead, with nothing changed outside it. -/
structure ChangedAlong (ts : List String) (l : List Step) (a b d d' : Json) : Prop where
  steps : steps? ts d = some l
  before : at? ts d = some a
  after : at? ts d' = some b
  changed : ChangedAt l a b d d'
  shapes : ∀ m, ¬ l <+: m → (valueAt? m d').map shape = (valueAt? m d).map shape

theorem changedAlong_of_update? (hd : d.Canonical) (h : update? change ts d = some d') :
    ∃ l a b, change a = some b ∧ ChangedAlong ts l a b d d' := by
  obtain ⟨l, a, b, hl, hb, hchanged⟩ := update?_changedAt h
  have hl' : steps? ts d' = some l := (steps?_of_update? h).trans hl
  exact ⟨l, a, b, hb, hl, (at?_of_steps? hl).trans hchanged.before,
    (at?_of_steps? hl').trans hchanged.after, hchanged, fun m hm => shape_of_update? hd h hl hm⟩

/-! ## Inside a container -/

/-- A container and what it is with a value put in under the last name of a path: over the member of
this name, if there is one, or between two items of an array. -/
inductive Added (last : String) (v : Json) : Json → Json → Prop where
  | member {members members' : Members} (ascending : Members.Ascending members')
      (value : ∀ name, Members.get? name members' =
        if name = last then some v else Members.get? name members) :
      Added last v (.object members) (.object members')
  | item {items : List Json} {i : Nat} (bound : i ≤ items.length)
      (named : if last = "-" then i = items.length else Text.unsigned? last.toList = some i) :
      Added last v (.array items) (.array (items.take i ++ v :: items.drop i))

/-- A container and what is left of it without the value under the last name of a path. -/
inductive Removed (last : String) (w : Json) : Json → Json → Prop where
  | member {members members' : Members} (ascending : Members.Ascending members')
      (old : Members.get? last members = some w)
      (value : ∀ name, Members.get? name members' =
        if name = last then none else Members.get? name members) :
      Removed last w (.object members) (.object members')
  | item {items : List Json} {i : Nat} (old : items[i]? = some w)
      (named : Text.unsigned? last.toList = some i) :
      Removed last w (.array items) (.array (items.take i ++ items.drop (i + 1)))

theorem added_of_addIn (ha : a.Canonical) (h : addIn last v a = some b) : Added last v a b := by
  obtain ⟨members, rfl, rfl⟩ | ⟨items, i, rfl, hi, hnamed, rfl⟩ := cases_of_addIn h
  · exact .member (Members.ascending_insert ha.1) fun name => Members.get?_insert last name v members
  · exact .item hi hnamed

theorem removed_of_removeIn (ha : a.Canonical) (h : removeIn last a = some b) :
    ∃ w, Removed last w a b := by
  obtain ⟨members, w, rfl, hw, rfl⟩ | ⟨items, i, rfl, hnumeral, hi, rfl⟩ := cases_of_removeIn h
  · refine ⟨w, .member (Members.ascending_erase ha.1) hw fun name => ?_⟩
    split
    · rename_i he
      rw [he, Members.get?_erase ha.1]
    · rename_i hne
      rw [Members.get?_erase_of_ne hne]
  · rw [List.eraseIdx_eq_take_drop_succ]
    exact ⟨items[i], .item (List.getElem?_eq_getElem hi) hnumeral⟩

/-! ## Items -/

/-- What an item does to a document: `replace` at the place of its path, `add` and `remove` in the
container of that place. -/
def Effect (item : Item) (d d' : Json) : Prop :=
  match item.change with
  | .replace v => ∃ ts l w, tokens? item.path = some ts ∧ ChangedAlong ts l w v d d'
  | .add v => ∃ ts last l a b, tokens? item.path = some (ts ++ [last]) ∧
      ChangedAlong ts l a b d d' ∧ Added last v a b
  | .remove => ∃ ts last l a b w, tokens? item.path = some (ts ++ [last]) ∧
      ChangedAlong ts l a b d d' ∧ Removed last w a b

theorem effect_of_apply {item : Item} (hd : d.Canonical) (h : item.apply d = .ok d') :
    Effect item d d' := by
  obtain ⟨change, path⟩ := item
  cases change with
  | replace v =>
    simp only [Item.apply] at h
    split at h
    · rename_i j hj
      cases h
      obtain ⟨ts, htokens, hupdate⟩ := Option.bind_eq_some_iff.mp hj
      obtain ⟨l, w, v', hv', hchanged⟩ := changedAlong_of_update? hd hupdate
      obtain rfl : v = v' := Option.some.inj hv'
      exact ⟨ts, l, w, htokens, hchanged⟩
    · cases h
  | add v =>
    obtain ⟨ts, last, htokens, hupdate⟩ := inParent_eq_ok_iff.mp h
    obtain ⟨l, a, b, hb, hchanged⟩ := changedAlong_of_update? hd hupdate
    have ha := canonical_of_at? hd hchanged.before
    exact ⟨ts, last, l, a, b, htokens, hchanged, added_of_addIn ha hb⟩
  | remove =>
    obtain ⟨ts, last, htokens, hupdate⟩ := inParent_eq_ok_iff.mp h
    obtain ⟨l, a, b, hb, hchanged⟩ := changedAlong_of_update? hd hupdate
    have ha := canonical_of_at? hd hchanged.before
    obtain ⟨w, hremoved⟩ := removed_of_removeIn ha hb
    exact ⟨ts, last, l, a, b, w, htokens, hchanged, hremoved⟩

/-- **An item that is not refused has its effect at its place and none outside it.** -/
theorem effect_of_patched {i : Json} (hd : d.Canonical) (h : patched d (.array [i]) = .ok d') :
    ∃ item, Item.ofJson i = .ok item ∧ Effect item d d' := by
  rw [patched_singleton] at h
  obtain ⟨item, hitem, happly⟩ := exists_of_bind_eq_ok h
  exact ⟨item, hitem, effect_of_apply hd happly⟩

/-- A value put between two items of a list below a member whose name is escaped. -/
theorem effect_of_patched_between :
    let d : Json := .object [("a/b", .array [.null, .bool true]), ("c", .bool false)]
    let i : Json := adding "/a~1b/1" (.string "x")
    let d' : Json := .object [("a/b", .array [.null, .string "x", .bool true]), ("c", .bool false)]
    d.Canonical ∧ patched d (.array [i]) = .ok d' ∧
      ∃ item, Item.ofJson i = .ok item ∧ Effect item d d' := by
  intro d i d'
  have hd : d.Canonical := ⟨by decide, ⟨trivial, trivial, trivial⟩, trivial, trivial⟩
  have h : patched d (.array [i]) = .ok d' := by rfl
  exact ⟨hd, h, effect_of_patched hd h⟩

end DataRepository.Patch
