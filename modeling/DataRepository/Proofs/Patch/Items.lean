import DataRepository.Proofs.Patch.Growth
import DataRepository.Proofs.Steps

/-! # What an item adds to a document

An item is read from a document that holds its path and its value, so the value is
less deep than the item and both together weigh less. What the item then adds is
the value and the name that the path ends in. -/
namespace DataRepository.Patch

open Json

/-! ## The last name of a path -/

theorem innerWeight_unescape_le (cs : List Char) : innerWeight (unescape cs) ≤ innerWeight cs := by
  have hmarks : charWeight '/' = 1 ∧ charWeight '~' = 1 := by decide
  fun_induction unescape cs with
  | case1 rest ih =>
    simp only [innerWeight_cons]
    omega
  | case2 rest ih =>
    simp only [innerWeight_cons]
    omega
  | case3 c rest _ _ ih =>
    simp only [innerWeight_cons]
    omega
  | case4 => exact Nat.le_refl _

theorem innerWeight_intercalate {parts : List (List Char)} (h : parts ≠ []) :
    innerWeight (['/'].intercalate parts) + 1 = (parts.map (innerWeight · + 1)).sum := by
  induction parts with
  | nil => contradiction
  | cons part rest ih =>
    cases rest with
    | nil => simp
    | cons next rest =>
      have ih := ih (by simp)
      have hslash : charWeight '/' = 1 := by decide
      rw [List.intercalate_cons_cons, innerWeight_append, innerWeight_append, innerWeight_cons, hslash]
      simp only [List.map_cons, List.sum_cons, innerWeight, List.map_nil, List.sum_nil] at ih ⊢
      omega

/-- The last name and the slash before it weigh no more than the path. -/
theorem stringWeight_of_splitLast? {path parent last : String}
    (h : splitLast? path = some (parent, last)) : stringWeight last + 1 ≤ stringWeight path := by
  unfold splitLast? at h
  split at h
  · rename_i lastPart parentPart before hparts
    simp only [Option.some.injEq, Prod.mk.injEq] at h
    obtain ⟨-, rfl⟩ := h
    have hpath := innerWeight_intercalate (List.splitOn_ne_nil '/' path.toList)
    rw [List.intercalate_splitOn, ← List.sum_reverse, ← List.map_reverse, hparts] at hpath
    have hle := innerWeight_unescape_le lastPart
    simp only [List.map_cons, List.sum_cons] at hpath
    simp only [stringWeight, String.toList_ofList]
    omega
  · cases h

/-! ## Reading an item -/

/-- What a draft holds of its document: its path and its value weigh no more than the bytes that have
been spent, and the value is no deeper than the depth. -/
structure Held (depth spent : Nat) (d : Draft) : Prop where
  weight : d.path.elim 0 (stringWeight · + 1) + d.value.join.elim 0 (·.weight + 1) ≤ spent
  value : ∀ v, d.value.join = some v → v.depth ≤ depth ∧ v.Canonical

theorem held_empty (depth : Nat) : Held depth 0 {} := ⟨Nat.le_refl _, fun _ h => by cases h⟩

theorem held_of_member {m : Member Draft} (hm : m ∈ record.members) {depth spent : Nat} {d d' : Draft}
    {j : Json} (hheld : Held depth spent d) (hdepth : j.depth ≤ depth) (hcanonical : j.Canonical)
    (h : m.fromJson j d = .ok d') : Held depth (spent + (1 + j.weight)) d' := by
  have hweight := hheld.weight
  simp only [record, List.mem_cons, List.not_mem_nil, or_false] at hm
  rcases hm with rfl | rfl | rfl
  · obtain ⟨op, -, rfl⟩ := exists_of_map_eq_ok h
    exact ⟨Nat.le_add_right_of_le hweight, hheld.value⟩
  · obtain ⟨path, hpath, rfl⟩ := exists_of_map_eq_ok h
    cases j with
    | string s =>
      cases hpath
      refine ⟨?_, hheld.value⟩
      simp only [Option.elim_some, Json.weight, weigh] at hweight ⊢
      omega
    | _ => cases hpath
  · obtain ⟨value, hvalue, rfl⟩ := exists_of_map_eq_ok h
    by_cases hnull : j = .null
    · subst hnull
      cases hvalue
      -- A `null` is read as no value, so nothing of the document is held.
      exact ⟨by simp only [Option.join_some, Option.elim_none] at hweight ⊢; omega, fun v hv => by cases hv⟩
    · have hvalue : value = some j := by
        cases j <;> first | contradiction | exact (Except.ok.inj hvalue).symm
      subst hvalue
      refine ⟨?_, fun v hv => ?_⟩
      · simp only [Option.join_some, Option.elim_some] at hweight ⊢
        omega
      · cases hv
        exact ⟨hdepth, hcanonical⟩

theorem held_of_fromMembers {ms : List (String × Json)} {depth spent : Nat} {d d' : Draft}
    (hheld : Held depth spent d) (hdepth : ∀ m ∈ ms, m.2.depth ≤ depth)
    (hcanonical : ∀ m ∈ ms, m.2.Canonical) (h : record.fromMembers d ms = .ok d') :
    Held depth (spent + weighMembers (fun _ => 1) ms) d' := by
  induction ms generalizing spent d with
  | nil =>
    cases h
    exact hheld
  | cons m rest ih =>
    obtain ⟨name, j⟩ := m
    obtain ⟨hj, hdepth⟩ := List.forall_mem_cons.mp hdepth
    obtain ⟨hjc, hcanonical⟩ := List.forall_mem_cons.mp hcanonical
    simp only [Record.fromMembers] at h
    split at h
    · rename_i member hmember
      split at h
      · rename_i d₁ hd₁
        have hheld := held_of_member (List.mem_of_find?_eq_some hmember) hheld hj hjc hd₁
        have hrest := ih hheld hdepth hcanonical h
        refine ⟨?_, hrest.value⟩
        have hweight := hrest.weight
        simp only [weighMembers, weighMember, Json.weight] at hweight ⊢
        omega
      · cases h
    · have hrest := ih hheld hdepth hcanonical h
      refine ⟨?_, hrest.value⟩
      have hweight := hrest.weight
      simp only [weighMembers] at hweight ⊢
      omega

theorem held_of_fromItems {members : List (Member Draft)} (hmembers : ∀ m ∈ members, m ∈ record.members)
    {items : List Json} {taken left depth spent : Nat} {d d' : Draft} (hheld : Held depth spent d)
    (hdepth : ∀ j ∈ items, j.depth ≤ depth) (hcanonical : ∀ j ∈ items, j.Canonical)
    (h : record.fromItems taken d members items = .ok (d', left)) :
    Held depth (spent + weighItems (fun _ => 1) items) d' := by
  induction members generalizing items taken spent d with
  | nil =>
    simp only [Record.fromItems] at h
    cases h
    exact ⟨Nat.le_add_right_of_le hheld.weight, hheld.value⟩
  | cons m rest ih =>
    obtain ⟨hm, hrest⟩ := List.forall_mem_cons.mp hmembers
    cases items with
    | nil =>
      simp only [Record.fromItems] at h
      split at h
      · exact ih hrest hheld (by simp) (by simp) h
      · cases h
    | cons j items =>
      obtain ⟨hj, hdepth⟩ := List.forall_mem_cons.mp hdepth
      obtain ⟨hjc, hcanonical⟩ := List.forall_mem_cons.mp hcanonical
      simp only [Record.fromItems] at h
      split at h
      · rename_i d₁ hd₁
        have hlast := ih hrest (held_of_member hm hheld hj hjc hd₁) hdepth hcanonical h
        refine ⟨?_, hlast.value⟩
        have hweight := hlast.weight
        simp only [weighItems, Json.weight] at hweight ⊢
        omega
      · cases h

/-- **An item is read from a document that is deeper than its value, and heavier than its value and
its path.** -/
theorem held_of_fromJson {i : Json} {op path : String} {value : Option Json} (hi : i.Canonical)
    (h : record.fromJson i = .ok (op, path, value)) :
    stringWeight path + value.elim 0 (·.weight + 1) + 2 ≤ i.weight ∧
      ∀ v, value = some v → v.depth ≤ i.depth - 1 ∧ v.Canonical := by
  have hfinish : ∀ {depth spent : Nat} {d : Draft}, Held depth spent d →
      record.finish d = .ok (op, path, value) →
      stringWeight path + value.elim 0 (·.weight + 1) + 1 ≤ spent ∧
        ∀ v, value = some v → v.depth ≤ depth ∧ v.Canonical := by
    intro depth spent d hheld hd
    obtain ⟨op', -, hd⟩ := exists_of_bind_eq_ok hd
    obtain ⟨path', hpath, hd⟩ := exists_of_bind_eq_ok hd
    cases hd
    refine ⟨?_, hheld.value⟩
    have hweight := hheld.weight
    cases hdraft : d.path with
    | none => rw [hdraft] at hpath; cases hpath
    | some p =>
      rw [hdraft] at hpath hweight
      cases hpath
      simp only [Option.elim_some] at hweight
      omega
  cases i with
  | object members =>
    obtain ⟨d, hd, hf⟩ := exists_of_bind_eq_ok h
    have hheld := held_of_fromMembers (held_empty (depthMembers members))
      (depthMembers_le_iff.mp (Nat.le_refl _)) (canonicalMembers_iff.mp hi.2) hd
    obtain ⟨hweight, hvalue⟩ := hfinish hheld hf
    refine ⟨?_, hvalue⟩
    simp only [Json.weight, weigh] at hweight ⊢
    omega
  | array items =>
    obtain ⟨⟨d, left⟩, hd, hf⟩ := exists_of_bind_eq_ok h
    obtain ⟨v, hv, hf⟩ := exists_of_bind_eq_ok hf
    have hv : v = (op, path, value) := by
      split at hf
      · exact Except.ok.inj hf
      · cases hf
    subst hv
    have hheld := held_of_fromItems (fun _ hm => hm) (held_empty (depthItems items))
      (depthItems_le_iff.mp (Nat.le_refl _)) (canonicalItems_iff.mp hi) hd
    obtain ⟨hweight, hvalue⟩ := hfinish hheld hv
    refine ⟨?_, hvalue⟩
    simp only [Json.weight, weigh] at hweight ⊢
    omega
  | _ => cases h

/-! ## Applying an item -/

/-- The value that a change brings into the document. -/
def Change.value? : Change → Option Json
  | .add v | .replace v => some v
  | .remove => none

/-- What is known of an item that has been read from a document. -/
structure Item.Within (i : Json) (item : Item) : Prop where
  weight : stringWeight item.path + item.change.value?.elim 0 (·.weight + 1) + 2 ≤ i.weight
  value : ∀ v, item.change.value? = some v → v.depth ≤ i.depth - 1 ∧ v.Canonical

theorem within_of_ofJson {i : Json} {item : Item} (hi : i.Canonical)
    (h : Item.ofJson i = .ok item) : item.Within i := by
  unfold Item.ofJson at h
  split at h
  · cases h
  · rename_i op path value hread
    obtain ⟨hweight, hvalue⟩ := held_of_fromJson hi hread
    split at h
    · cases value with
      | none => cases h
      | some v => cases h; exact ⟨hweight, hvalue⟩
    · split at h
      · cases value with
        | none => cases h
        | some v => cases h; exact ⟨hweight, hvalue⟩
      · split at h
        · cases h
          refine ⟨?_, fun v hv => by cases hv⟩
          simp only [Change.value?, Option.elim_none]
          omega
        · cases h

theorem Grown.mono {d d' c c' : Nat} {j j' : Json} (h : Grown d c j j') (hd : d ≤ d') (hc : c ≤ c') :
    Grown d' c' j j' :=
  ⟨Nat.le_trans h.depth (Nat.add_le_add_left hd _), Nat.le_trans h.weight (Nat.add_le_add_left hc _),
    h.canonical⟩

theorem inParent_grown {change : String → Json → Option Json} {path : String} {d c : Nat} {j j' : Json}
    (hchange : ∀ last, stringWeight last + 1 ≤ stringWeight path →
      ∀ a a', a.Canonical → change last a = some a' → Grown d c a a')
    (hj : j.Canonical) (h : inParent change path j = .ok j') : Grown d c j j' := by
  unfold inParent at h
  split at h
  · cases h
  · rename_i parent last hlast
    split at h
    · rename_i j₁ hj₁
      cases h
      obtain ⟨ts, -, hupdate⟩ := Option.bind_eq_some_iff.mp hj₁
      exact update?_grown (hchange last (stringWeight_of_splitLast? hlast)) hj hupdate
    · cases h

/-- **An item deepens a document by less than its own depth, and adds no more than its own weight.** -/
theorem apply_grown {i j j' : Json} {item : Item} (hitem : item.Within i) (hj : j.Canonical)
    (h : item.apply j = .ok j') : Grown (i.depth - 1) i.weight j j' := by
  obtain ⟨change, path⟩ := item
  obtain ⟨hweight, hvalue⟩ := hitem
  cases change with
  | replace v =>
    obtain ⟨hdepth, hcanonical⟩ := hvalue v rfl
    simp only [Change.value?, Option.elim_some] at hweight
    simp only [Item.apply] at h
    split at h
    · rename_i j₁ hj₁
      cases h
      obtain ⟨ts, -, hupdate⟩ := Option.bind_eq_some_iff.mp hj₁
      refine update?_grown (fun a a' _ ha => ?_) hj hupdate
      cases ha
      exact ⟨Nat.le_add_left_of_le hdepth, by omega, hcanonical⟩
    · cases h
  | add v =>
    obtain ⟨hdepth, hcanonical⟩ := hvalue v rfl
    simp only [Change.value?, Option.elim_some] at hweight
    refine inParent_grown (fun last hlast a a' hac ha => ?_) hj h
    have hlast : stringWeight last + 1 ≤ stringWeight path := hlast
    exact (addIn_grown hcanonical hac ha).mono hdepth (by omega)
  | remove =>
    refine inParent_grown (fun last _ a a' hac ha => ?_) hj h
    exact (removeIn_grown hac ha).mono (Nat.zero_le _) (Nat.zero_le _)

/-! ## Applying a patch -/

/-- How much deeper a patch can make a document: for every item, the depth of what the item holds. -/
def deepening : Json → Nat
  | .array items => (items.map (·.depth - 1)).sum
  | _ => 0

theorem applyItems_grown {items : List Json} (hitems : ∀ i ∈ items, i.Canonical) {j j' : Json}
    (hj : j.Canonical) (h : applyItems j items = ⟨j', none⟩) :
    Grown (items.map (·.depth - 1)).sum (weighItems (fun _ => 1) items) j j' := by
  induction items generalizing j with
  | nil =>
    cases h
    exact ⟨Nat.le_refl _, Nat.le_refl _, hj⟩
  | cons i rest ih =>
    obtain ⟨hi, hrest⟩ := List.forall_mem_cons.mp hitems
    simp only [applyItems] at h
    split at h
    · rename_i j₁ hstep
      obtain ⟨item, hitem, happly⟩ := exists_of_bind_eq_ok hstep
      have hfirst := apply_grown (within_of_ofJson hi hitem) hj happly
      have hlast := ih hrest hfirst.canonical h
      have hdepth := hfirst.depth
      have hdepth' := hlast.depth
      have hweight := hfirst.weight
      have hweight' := hlast.weight
      refine ⟨?_, ?_, hlast.canonical⟩
      · simp only [List.map_cons, List.sum_cons]
        omega
      · simp only [weighItems, Json.weight] at hweight hweight' ⊢
        omega
    · cases h

/-- **What a patch makes of a document.** -/
theorem patched_grown {j p j' : Json} (hj : j.Canonical) (hp : p.Canonical)
    (h : patched j p = .ok j') :
    j'.depth ≤ max j.depth p.depth + deepening p ∧ j'.weight ≤ j.weight + p.weight ∧ j'.Canonical := by
  unfold patched at h
  split at h
  · cases h
  · rename_i j₁ happly
    cases h
    cases p with
    | array items =>
      have hgrown := applyItems_grown (canonicalItems_iff.mp hp) hj happly
      have hdepth := hgrown.depth
      have hweight := hgrown.weight
      refine ⟨?_, ?_, hgrown.canonical⟩
      · simp only [deepening]
        omega
      · simp only [Json.weight, weigh] at hweight ⊢
        omega
    | object members =>
      obtain ⟨hdepth, hweight, hcanonical⟩ := merge_grown j (.object members) hj hp
      have hle := membersWeight_membersOf_le j
      cases happly
      exact ⟨hdepth, by omega, hcanonical⟩
    | _ => cases happly

/-! ## The patch that appends -/

/-- The item that appends a value to a list. -/
def appendingItem (v : Json) : Json :=
  .object [("op", .string "add"), ("path", .string "/-"), ("value", v)]

def appending (v : Json) : Json := .array [appendingItem v]

theorem ofJson_appendingItem {v : Json} (hv : v ≠ .null) :
    Item.ofJson (appendingItem v) = .ok ⟨.add v, "/-"⟩ := by
  cases v with
  | null => contradiction
  | _ => rfl

theorem patched_appending {v : Json} (hv : v ≠ .null) (items : List Json) :
    patched (.array items) (appending v) = .ok (.array (items ++ [v])) := by
  have hlast : splitLast? "/-" = some ("", "-") := by decide +kernel
  have htokens : tokens? "" = some [] := by decide +kernel
  have happly : Item.apply ⟨.add v, "/-"⟩ (.array items) = .ok (.array (items ++ [v])) := by
    simp only [Item.apply, inParent, hlast, htokens, Option.bind_eq_bind, Option.bind_some, update?,
      addIn, if_pos]
  have hstep : (Item.ofJson (appendingItem v) >>= fun item => item.apply (.array items)) =
      .ok (.array (items ++ [v])) := by
    rw [ofJson_appendingItem hv]
    exact happly
  simp only [patched, appending, apply, applyItems, hstep]

end DataRepository.Patch
