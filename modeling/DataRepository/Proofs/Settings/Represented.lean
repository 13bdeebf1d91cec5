import DataRepository.Proofs.Settings.Nested

/-! # What nested settings are read as

The value of a document that nests settings has the members of its mappings in their order, and
names lead to the same place in both. Merged into nothing it stays as it is, so such a file either
holds a scalar that has no value, and cannot be read, or gives every setting the value of its own
scalar. -/
namespace DataRepository.Settings

open Yaml (Node)

/-! ## Merging -/

/-- A value that is neither a list nor a table. -/
def Value.isSingle : Value → Bool
  | .list _ | .table _ => false
  | _ => true

theorem isSingle_of_ofPlain? {text : String} {v : Value} (h : ofPlain? text = some v) :
    v.isSingle = true := by
  unfold ofPlain? at h
  repeat' split at h
  all_goals cases h <;> rfl

theorem isSingle_of_ofTagged? {tag : Yaml.Tag} {text : String} {v : Value}
    (h : ofTagged? tag text = some v) : v.isSingle = true := by
  unfold ofTagged? at h
  have hmap : ∀ {α : Type} (o : Option α) (f : α → Value), (∀ a, (f a).isSingle = true) →
      ((o.map f).getD .nothing).isSingle = true := by
    intro α o f hf
    cases o with
    | none => rfl
    | some a => exact hf a
  repeat' split at h
  all_goals cases h
  all_goals first
    | rfl
    | exact hmap _ _ fun _ => rfl

theorem isSingle_of_ofScalar? {text : String} {isPlain : Bool} {tag : Option Yaml.Tag} {v : Value}
    (h : ofScalar? text isPlain tag = some v) : v.isSingle = true := by
  unfold ofScalar? at h
  split at h
  · cases h; rfl
  · split at h
    · exact isSingle_of_ofTagged? h
    · exact isSingle_of_ofPlain? h

theorem follow?_of_isSingle {v : Value} (h : v.isSingle = true) (name : String)
    (names : List String) : follow? (name :: names) v = none := by
  cases v with
  | table members => cases h
  | _ => rfl

theorem merge_of_isSingle {v : Value} (h : v.isSingle = true) (current : Option Value) :
    merge current v = v := by
  cases v with
  | list items => cases h
  | table members => cases h
  | _ => rfl

theorem merge_none_table (members : List (String × Value)) :
    merge none (.table members) = .table (mergeMembers [] members) := by
  cases members <;> rfl

theorem putMember_of_not_mem {name : String} {members : List (String × Value)}
    (h : name ∉ members.map (·.1)) (v : Value) : putMember name v members = members ++ [(name, v)] := by
  induction members with
  | nil => rfl
  | cons m rest ih =>
    rw [List.map_cons, List.mem_cons, not_or] at h
    rw [putMember, if_neg (Ne.symm h.1), ih h.2, List.cons_append]

theorem member?_cons_self (name : String) (v : Value) (members : List (String × Value)) :
    member? name ((name, v) :: members) = some v := by
  simp [member?]

theorem member?_cons_of_ne {name other : String} (h : other ≠ name) (v : Value)
    (members : List (String × Value)) : member? name ((other, v) :: members) = member? name members := by
  rw [member?, List.find?_cons_of_neg (by simpa using h), member?]

theorem member?_of_not_mem {name : String} {members : List (String × Value)}
    (h : name ∉ members.map (·.1)) : member? name members = none := by
  rw [member?, Option.map_eq_none_iff, List.find?_eq_none]
  intro m hm hname
  exact h (List.mem_map.mpr ⟨m, hm, of_decide_eq_true hname⟩)

/-- A source whose names are names of members of the root is merged into the members. -/
theorem apply_eq_mergeMembers {source : List (String × Value)}
    (h : ∀ m ∈ source, Path.ofName m.1 = ⟨m.1, []⟩) (members : List (String × Value)) :
    apply members source = mergeMembers members source := by
  induction source generalizing members with
  | nil => rfl
  | cons m source ih =>
    obtain ⟨hm, hmore⟩ := List.forall_mem_cons.mp h
    have hput : apply members (m :: source) =
        apply (putMember (lowerName m.1) (merge (member? (lowerName m.1) members) m.2) members) source := by
      simp only [apply, List.foldl_cons, hm, setAt, setBelow]
    rw [hput, ih hmore]
    rfl

/-! ## Values in the order of their entries -/

mutual

/-- A value that a node stands for, with members in the order of the entries. -/
inductive Represents : Node → Value → Prop where
  | scalar {text : String} {isPlain : Bool} {tag : Option Yaml.Tag} {v : Value}
      (h : ofScalar? text isPlain tag = some v) : Represents (.scalar text isPlain tag) v
  | mapping {entries : List (Node × Node)} {members : List (String × Value)}
      (h : RepresentsEntries entries members) : Represents (.mapping entries) (.table members)

/-- Members that the entries of a mapping stand for. -/
inductive RepresentsEntries : List (Node × Node) → List (String × Value) → Prop where
  | nil : RepresentsEntries [] []
  | cons {key n : Node} {name : String} {v : Value} {entries : List (Node × Node)}
      {members : List (String × Value)} (named : keyName? key = some name) (h : Represents n v)
      (more : RepresentsEntries entries members) :
      RepresentsEntries ((key, n) :: entries) ((name, v) :: members)

end

theorem RepresentsEntries.map_fst {entries : List (Node × Node)} {members : List (String × Value)}
    (h : RepresentsEntries entries members) :
    entries.map (keyName? ·.1) = members.map fun m => some m.1 := by
  induction entries generalizing members with
  | nil => cases h; rfl
  | cons e entries ih =>
    cases h with
    | cons named h more => rw [List.map_cons, List.map_cons, ih more, named]

theorem find?_rel_member? {entries : List (Node × Node)} {members : List (String × Value)}
    (h : RepresentsEntries entries members) (name : String) :
    Option.Rel (fun e v => Represents e.2 v) (entries.find? (keyName? ·.1 = some name))
      (member? name members) := by
  induction entries generalizing members with
  | nil => cases h; exact .none
  | cons e entries ih =>
    cases h with
    | @cons key n name' v _ members named h more =>
      by_cases hname : name' = name
      · subst hname
        rw [List.find?_cons_of_pos (by simpa using named), member?_cons_self]
        exact .some h
      · have hkey : keyName? key ≠ some name := by
          rw [named]
          exact fun he => hname (Option.some.inj he)
        rw [List.find?_cons_of_neg (by simpa using hkey), member?_cons_of_ne hname]
        exact ih more

/-- **Names lead to the same place in a document and in its value.** -/
theorem Represents.follow {n : Node} {v : Value} (h : Represents n v) (names : List String) :
    Option.Rel Represents (nodeAt? names n) (follow? names v) := by
  induction names generalizing n v with
  | nil => exact .some h
  | cons name names ih =>
    cases h with
    | scalar h =>
      rw [follow?_of_isSingle (isSingle_of_ofScalar? h)]
      exact .none
    | mapping h =>
      have hfirst := find?_rel_member? h name
      simp only [nodeAt?, follow?, entriesOf, membersOf]
      generalize List.find? _ _ = e, member? _ _ = u at hfirst ⊢
      cases hfirst with
      | none => exact .none
      | some h => exact ih h

/-! ## Reading a document -/

/-- Below these names there is a scalar of a setting that has no value. -/
def ValuelessBelow (names : List String) (n : Node) : Prop :=
  ∃ (k : Setting) (more : List String) (text : String) (isPlain : Bool) (tag : Option Yaml.Tag),
    k.names = names ++ more ∧ nodeAt? more n = some (.scalar text isPlain tag) ∧
      ofScalar? text isPlain tag = none

theorem ValuelessBelow.of_entry {names : List String} {name : String} {key n : Node}
    {entries : List (Node × Node)} (hkey : keyName? key = some name)
    (h : ValuelessBelow (names ++ [name]) n) : ValuelessBelow names (.mapping ((key, n) :: entries)) := by
  obtain ⟨k, more, text, isPlain, tag, hk, hscalar, hnone⟩ := h
  refine ⟨k, name :: more, text, isPlain, tag, by rw [hk, List.append_assoc, List.singleton_append], ?_,
    hnone⟩
  rw [nodeAt?, entriesOf, List.find?_cons_of_pos (by simpa using hkey)]
  exact hscalar

theorem ValuelessBelow.of_entries {names : List String} {e : Node × Node} {entries : List (Node × Node)}
    (hkey : keyName? e.1 ∉ entries.map (keyName? ·.1)) (h : ValuelessBelow names (.mapping entries)) :
    ValuelessBelow names (.mapping (e :: entries)) := by
  obtain ⟨k, more, text, isPlain, tag, hk, hscalar, hnone⟩ := h
  refine ⟨k, more, text, isPlain, tag, hk, ?_, hnone⟩
  cases more with
  | nil => cases hscalar
  | cons name more =>
    obtain ⟨e', he', hscalar⟩ := Option.bind_eq_some_iff.mp hscalar
    have hname : keyName? e.1 ≠ some name := by
      intro he
      refine hkey (List.mem_map.mpr ⟨e', List.mem_of_find?_eq_some he', ?_⟩)
      rw [he]
      simpa using List.find?_some he'
    rw [nodeAt?, entriesOf, List.find?_cons_of_neg (by simpa using hname)]
    exact Option.bind_eq_some_iff.mpr ⟨e', he', hscalar⟩

/-- None of the entries has the name of a member. -/
def Fresh (entries : List (Node × Node)) (members : List (String × Value)) : Prop :=
  ∀ m ∈ members, some m.1 ∉ entries.map (keyName? ·.1)

section

variable {key n : Node} {name : String} {entries : List (Node × Node)} {members : List (String × Value)}

theorem Fresh.not_mem (h : Fresh ((key, n) :: entries) members) (hkey : keyName? key = some name) :
    name ∉ members.map (·.1) := by
  intro hname
  obtain ⟨m, hm, rfl⟩ := List.mem_map.mp hname
  exact h m hm (List.mem_cons.mpr (.inl hkey.symm))

theorem Fresh.append (h : Fresh ((key, n) :: entries) members) (hkey : keyName? key = some name)
    (hfirst : keyName? key ∉ entries.map (keyName? ·.1)) (v : Value) :
    Fresh entries (members ++ [(name, v)]) := by
  intro m hm hentry
  obtain hm | hm := List.mem_append.mp hm
  · exact h m hm (List.mem_cons_of_mem _ hentry)
  · obtain rfl := List.mem_singleton.mp hm
    exact hfirst (hkey ▸ hentry)

/-- The keys of entries that nest settings have names. -/
theorem map_name?_of_nestEntries {names : List String} (h : nestEntries names entries = true) :
    (entries.filterMap (Key.ofNode? ·.1)).map Key.name? = entries.map (keyName? ·.1) := by
  induction entries with
  | nil => rfl
  | cons e entries ih =>
    obtain ⟨key, n⟩ := e
    obtain ⟨⟨name, hkey, -⟩, hmore⟩ := nestEntries_cons_iff.mp h
    obtain ⟨k, hk, hname⟩ := Option.bind_eq_some_iff.mp hkey
    simp only [List.filterMap_cons, hk, List.map_cons, ih hmore, hname, hkey]

end

mutual

/-- A node that nests settings has a scalar without a value, or is represented by what it is read as. -/
theorem ofNode_of_nests : (n : Node) → ∀ names, nests names n = true →
    (ofNode n = .error .malformed ∧ ValuelessBelow names n) ∨ ∃ v, ofNode n = .ok v ∧ Represents n v
  | .scalar text isPlain tag => by
    intro names h
    obtain ⟨⟨k, hk⟩, -⟩ := nests_scalar_iff.mp h
    rw [ofNode]
    cases hscalar : ofScalar? text isPlain tag with
    | none => exact .inl ⟨rfl, k, [], text, isPlain, tag, by rw [hk, List.append_nil], rfl, hscalar⟩
    | some v => exact .inr ⟨v, rfl, .scalar hscalar⟩
  | .sequence items => fun _ h => by cases h
  | .mapping entries => by
    intro names h
    obtain ⟨-, hdistinct, hentries⟩ := nests_mapping_iff.mp h
    rw [ofNode]
    obtain ⟨hread, hbelow⟩ | ⟨members, hread, hmembers⟩ :=
      ofEntries_of_nests entries names [] hentries hdistinct nofun
    · exact .inl ⟨by rw [hread]; rfl, hbelow⟩
    · exact .inr ⟨.table members, by rw [hread]; rfl, .mapping hmembers⟩
termination_by structural n => n

/-- So have the entries of a mapping, or they are read as members that come after those there are. -/
theorem ofEntries_of_nests : (entries : List (Node × Node)) → ∀ names (members : List (String × Value)),
    nestEntries names entries = true → (entries.map (keyName? ·.1)).Nodup → Fresh entries members →
    (ofEntries members entries = .error .malformed ∧ ValuelessBelow names (.mapping entries)) ∨
      ∃ more, ofEntries members entries = .ok (members ++ more) ∧ RepresentsEntries entries more
  | [] => fun _ members _ _ _ => .inr ⟨[], by rw [ofEntries, List.append_nil], .nil⟩
  | (key, n) :: entries => by
    intro names members h hdistinct hfresh
    obtain ⟨⟨name, hkey, hn⟩, hentries⟩ := nestEntries_cons_iff.mp h
    obtain ⟨hfirst, hdistinct⟩ := List.nodup_cons.mp hdistinct
    have hname : (Key.ofNode? key).bind Key.name? = some name := hkey
    simp only [ofEntries, hname]
    obtain ⟨hread, hbelow⟩ | ⟨v, hread, hv⟩ := ofNode_of_nests n (names ++ [name]) hn
    · exact .inl ⟨by rw [hread]; rfl, hbelow.of_entry hkey⟩
    · have hput := putMember_of_not_mem (hfresh.not_mem hkey) v
      rw [hread]
      obtain ⟨hrest, hbelow⟩ | ⟨more, hrest, hmore⟩ :=
        ofEntries_of_nests entries names (members ++ [(name, v)]) hentries hdistinct
          (hfresh.append hkey hfirst v)
      · exact .inl ⟨by rw [← hrest, ← hput]; rfl, hbelow.of_entries hfirst⟩
      · refine .inr ⟨(name, v) :: more, ?_, .cons hkey hv hmore⟩
        rw [← List.append_cons] at hrest
        rw [← hrest, ← hput]
        rfl
termination_by structural entries => entries

end

mutual

/-- No key comes twice in a document that nests settings. -/
theorem hasDistinctKeys_of_nests : (n : Node) → ∀ names, nests names n = true → hasDistinctKeys n = true
  | .scalar .. => fun _ _ => rfl
  | .sequence _ => fun _ h => by cases h
  | .mapping entries => by
    intro names h
    obtain ⟨-, hdistinct, hentries⟩ := nests_mapping_iff.mp h
    have hkeys : (entries.filterMap (Key.ofNode? ·.1)).Nodup :=
      List.Nodup.of_map Key.name? (map_name?_of_nestEntries hentries ▸ hdistinct)
    rw [hasDistinctKeys, decide_eq_true hkeys, Bool.true_and]
    exact haveDistinctKeys_of_nests entries names hentries
termination_by structural n => n

theorem haveDistinctKeys_of_nests : (entries : List (Node × Node)) → ∀ names,
    nestEntries names entries = true → haveDistinctKeys entries = true
  | [] => fun _ _ => rfl
  | (key, n) :: entries => by
    intro names h
    obtain ⟨⟨name, hkey, hn⟩, hentries⟩ := nestEntries_cons_iff.mp h
    have hscalar : hasDistinctKeys key = true := by
      cases key with
      | scalar text isPlain tag => rfl
      | sequence items => cases hkey
      | mapping entries => cases hkey
    rw [haveDistinctKeys, hscalar, hasDistinctKeys_of_nests n (names ++ [name]) hn,
      haveDistinctKeys_of_nests entries names hentries]
    rfl
termination_by structural entries => entries

end

mutual

/-- What represents a document that nests settings stays as it is when it is merged into nothing. -/
theorem Represents.merge_eq : (n : Node) → ∀ names v, nests names n = true → Represents n v →
    merge none v = v
  | .scalar .. => fun _ _ _ hv => by
    cases hv with
    | scalar hscalar => exact merge_of_isSingle (isSingle_of_ofScalar? hscalar) none
  | .sequence _ => fun _ _ h => by cases h
  | .mapping entries => by
    intro names v h hv
    obtain ⟨-, hdistinct, hentries⟩ := nests_mapping_iff.mp h
    cases hv with
    | @mapping _ members hmembers =>
      rw [merge_none_table,
        RepresentsEntries.mergeMembers_eq entries names members [] hentries hdistinct hmembers nofun]
      rfl
termination_by structural n => n

theorem RepresentsEntries.mergeMembers_eq : (entries : List (Node × Node)) →
    ∀ names (members into : List (String × Value)), nestEntries names entries = true →
    (entries.map (keyName? ·.1)).Nodup → RepresentsEntries entries members →
    Fresh entries into → mergeMembers into members = into ++ members
  | [] => fun _ _ into _ _ hmembers _ => by
    cases hmembers with
    | nil => exact (List.append_nil into).symm
  | (key, n) :: entries => by
    intro names members into h hdistinct hmembers hfresh
    obtain ⟨⟨name, hkey, hn⟩, hentries⟩ := nestEntries_cons_iff.mp h
    obtain ⟨hfirst, hdistinct⟩ := List.nodup_cons.mp hdistinct
    cases hmembers with
    | @cons _ _ name' v _ members hkey' hv hmore =>
      obtain rfl : name = name' := Option.some.inj (hkey.symm.trans hkey')
      have hlower : lowerName name = name :=
        (plain_of_nests hn name (List.mem_append_right names List.mem_cons_self)).1
      have hmem := hfresh.not_mem hkey
      rw [mergeMembers, hlower, member?_of_not_mem hmem, Represents.merge_eq n _ v hn hv,
        putMember_of_not_mem hmem, RepresentsEntries.mergeMembers_eq entries names members _ hentries
          hdistinct hmore (hfresh.append hkey hfirst v), ← List.append_cons]
termination_by structural entries => entries

end

/-! ## Files -/

section

variable {doc : Node} {given : List (String × Value)}

/-- **A file that nests settings cannot be read if the scalar of a setting has no value; what is read
of it represents its document otherwise.** -/
theorem ofNamed_of_nests {file : File} (hfile : file.document? = some doc) (h : nests [] doc = true) :
    (ofNamed file = .error .unreadable ∧ ∃ k, Valueless doc k) ∨
      ∃ given, ofNamed file = .ok given ∧ Represents doc (.table given) := by
  cases file with
  | unreadable => cases hfile
  | unnamed =>
    cases hfile
    exact .inr ⟨[], rfl, .mapping .nil⟩
  | text content =>
    unfold ofNamed ofFile
    obtain ⟨hnone, rfl⟩ | hone := File.documents?_of_document? hfile
    · exact .inr ⟨[], by simp only [hnone], .mapping .nil⟩
    · simp only [hone, hasDistinctKeys_of_nests doc [] h, if_true]
      obtain ⟨herror, k, more, text, isPlain, tag, rfl, hscalar⟩ | ⟨v, hv, hrep⟩ :=
        ofNode_of_nests doc [] h
      · exact .inl ⟨by rw [herror], k, text, isPlain, tag, hscalar⟩
      · cases hrep with
        | scalar hscalar =>
          obtain ⟨⟨k, hk⟩, -⟩ := nests_scalar_iff.mp h
          exact absurd (hk ▸ List.mem_cons_self) k.names_not_mem
        | @mapping entries members hmembers =>
          exact .inr ⟨members, by rw [hv], .mapping hmembers⟩

/-- **The members that represent a document that nests settings are applied as they are.** -/
theorem apply_of_represents (h : nests [] doc = true) (hgiven : Represents doc (.table given)) :
    apply [] given = given := by
  have hmerge := Represents.merge_eq doc [] _ h hgiven
  rw [merge_none_table] at hmerge
  rw [apply_eq_mergeMembers, Value.table.inj hmerge]
  intro m hm
  cases hgiven with
  | scalar hscalar => cases isSingle_of_ofScalar? hscalar
  | @mapping entries _ hmembers =>
    have hkey : some m.1 ∈ entries.map (keyName? ·.1) := by
      rw [hmembers.map_fst]
      exact List.mem_map_of_mem hm
    obtain ⟨e, he, hname⟩ := List.mem_map.mp hkey
    obtain ⟨name, hname', hn⟩ := nests_of_mem (nests_mapping_iff.mp h).2.2 he
    obtain rfl : m.1 = name := Option.some.inj (hname.symm.trans hname')
    exact (plain_of_nests hn m.1 List.mem_cons_self).2

/-- Names lead to nothing in a document and in the members that represent it, or to a node that nests
settings and to what represents it. -/
theorem follow_cases (h : nests [] doc = true) (hgiven : Represents doc (.table given))
    (names : List String) :
    (nodeAt? names doc = none ∧ follow? names (.table given) = none) ∨
      ∃ n v, nodeAt? names doc = some n ∧ follow? names (.table given) = some v ∧
        nests names n = true ∧ Represents n v := by
  have hfollow := hgiven.follow names
  generalize hn : nodeAt? names doc = n, follow? names (.table given) = v at hfollow
  cases hfollow with
  | none => exact .inl ⟨rfl, rfl⟩
  | @some n v hrep => exact .inr ⟨n, v, rfl, rfl, nests_of_nodeAt? h hn, hrep⟩

/-- A document gives a setting the value of the scalar that its names lead to. -/
theorem follow?_of_represents (h : nests [] doc = true) (hgiven : Represents doc (.table given))
    (k : Setting) : follow? k.names (.table given) = (nodeAt? k.names doc).bind scalarValue? := by
  obtain ⟨hn, hv⟩ | ⟨n, v, hn, hv, hnests, hrep⟩ := follow_cases h hgiven k.names
  · rw [hn, hv]
    rfl
  · rw [hn, hv]
    cases hrep with
    | scalar hscalar => exact hscalar.symm
    | mapping => exact absurd (nests_mapping_iff.mp hnests).1 k.names_not_mem

theorem not_valueless_of_represents (h : nests [] doc = true) (hgiven : Represents doc (.table given))
    (k : Setting) : ¬ Valueless doc k := by
  intro hvalueless
  obtain ⟨text, isPlain, tag, hnode, hnone⟩ := hvalueless
  obtain ⟨hn, -⟩ | ⟨n, v, hn, -, -, hrep⟩ := follow_cases h hgiven k.names
  · cases hn.symm.trans hnode
  · obtain rfl : n = .scalar text isPlain tag := Option.some.inj (hn.symm.trans hnode)
    cases hrep with
    | scalar hscalar => cases hnone.symm.trans hscalar

theorem hasTables_of_represents (h : nests [] doc = true) (hgiven : Represents doc (.table given)) :
    HasTables given := by
  intro names hnames u hu
  obtain ⟨-, hv⟩ | ⟨n, v, -, hv, hnests, hrep⟩ := follow_cases h hgiven names
  · cases hv.symm.trans hu
  · obtain rfl : v = u := Option.some.inj (hv.symm.trans hu)
    cases hrep with
    | scalar =>
      obtain ⟨⟨k, hk⟩, -⟩ := nests_scalar_iff.mp hnests
      exact absurd (List.mem_cons_of_mem _ (hk ▸ hnames)) k.names_not_mem
    | mapping => exact ⟨_, rfl⟩

end

end DataRepository.Settings
