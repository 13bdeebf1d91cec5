import DataRepository.Proofs.Patch.Agreement
import DataRepository.Proofs.Patch.Descent
import DataRepository.Proofs.Patch.Escaping

/-! # The member that a pointer addresses

The pointer that is written for some names goes down by these names. So where all but the
last lead through nested objects to an object, its items change the member of the last
name in this object and nothing else, and they can mean no other member: a value that is
put at one place is found at no other, unless it was there (`ActsOn.place_eq`). -/
namespace DataRepository.Patch

open Text (replace)

variable {p last name name' : String} {ts us : List String} {l l' : List Step}
  {members members' : Members} {change : Json → Option Json} {a b d d' v : Json}

/-! ## Written pointers -/

/-- The pointer that is written for these names: a slash before each, and in the name `~0` for `~` and
then `~1` for `/`. -/
def written (names : List String) : String :=
  String.ofList (names.flatMap fun n =>
    '/' :: replace ['/'] ['~', '1'] (replace ['~'] ['~', '0'] n.toList))

theorem written_eq_pointer (names : List String) : written names = pointer names := by
  simp only [written, pointer, escape_eq_replace]

theorem tokens?_written (names : List String) : tokens? (written names) = some names := by
  rw [written_eq_pointer, tokens?_pointer]

theorem written_inj (h : written ts = written us) : ts = us := by
  have htokens := tokens?_written ts
  rw [h, tokens?_written] at htokens
  exact (Option.some.inj htokens).symm

/-- Split at its last slash, the pointer is the one for the names before the last, and the last name. -/
theorem splitLast?_written (ts : List String) (last : String) :
    splitLast? (written (ts ++ [last])) = some (written ts, last) := by
  have hchars : (written (ts ++ [last])).toList =
      (pointer ts).toList ++ '/' :: escape last.toList := by
    simp [written_eq_pointer, pointer]
  rw [splitLast?_eq_cutAtLast?, hchars, Text.cutAtLast?_append (slash_not_mem_escape _),
    Option.map_some, written_eq_pointer]
  simp only [← unescape_eq_replace, unescape_escape, String.ofList_toList]

/-- The value to which a pointer leads. -/
def resolve? (p : String) (d : Json) : Option Json := tokens? p >>= fun ts => at? ts d

theorem resolve?_written (names : List String) (d : Json) : resolve? (written names) d = at? names d := by
  rw [resolve?, tokens?_written, Option.bind_eq_bind, Option.bind_some]

theorem at?_append (ts us : List String) (d : Json) : at? (ts ++ us) d = at? ts d >>= at? us := by
  induction ts generalizing d with
  | nil => cases d <;> rfl
  | cons t ts ih =>
    rw [List.cons_append, at?_cons, at?_cons]
    cases step? t d with
    | none => rfl
    | some s => cases hv : s.value? d <;> simp [hv, ih]

/-- Split at its last slash or not, a pointer leads to the same value of any document. -/
theorem resolve?_of_splitLast? {parent : String} (h : splitLast? p = some (parent, last)) (d : Json) :
    resolve? p d = resolve? parent d >>= at? [last] := by
  rw [resolve?, resolve?, tokens?_of_splitLast? h]
  cases tokens? parent with
  | none => rfl
  | some ts => exact at?_append ts [last] d

/-! ## Down through objects -/

theorem steps?_of_descend? (h : descend? ts d = some a) :
    steps? ts d = some (ts.map .member) ∧ valueAt? (ts.map .member) d = some a := by
  induction ts generalizing d with
  | nil => exact ⟨rfl, h⟩
  | cons t ts ih =>
    cases d with
    | object members =>
      obtain ⟨v, hv, hdescend⟩ := Option.bind_eq_some_iff.mp h
      obtain ⟨hsteps, hvalue⟩ := ih hdescend
      refine ⟨steps?_cons rfl hv hsteps, ?_⟩
      rw [List.map_cons, valueAt?, Step.value?, hv]
      exact hvalue
    | _ => cases h

theorem at?_of_descend? (h : descend? ts d = some a) : at? ts d = some a := by
  obtain ⟨hsteps, hvalue⟩ := steps?_of_descend? h
  rw [at?_of_steps? hsteps, hvalue]

/-- What can be made of the value at the end of the names is made of it in its place. -/
theorem exists_update? (h : descend? ts d = some a) (hb : change a = some b) :
    ∃ d', update? change ts d = some d' ∧ ChangedAt (ts.map .member) a b d d' := by
  have hsome : (update? change ts d).isSome = true := by
    rw [isSome_update?, at?_of_descend? h, Option.bind_eq_bind, Option.bind_some, hb, Option.isSome_some]
  obtain ⟨d', hd'⟩ := Option.isSome_iff_exists.mp hsome
  obtain ⟨l, a', b', hl, hb', hchanged⟩ := update?_changedAt hd'
  obtain ⟨hsteps, hvalue⟩ := steps?_of_descend? h
  obtain rfl : ts.map .member = l := Option.some.inj (hsteps.symm.trans hl)
  obtain rfl : a = a' := Option.some.inj (hvalue.symm.trans hchanged.before)
  obtain rfl : b = b' := Option.some.inj (hb.symm.trans hb')
  exact ⟨d', hd', hchanged⟩

theorem update?_eq_none (h : descend? ts d = some a) (hb : change a = none) :
    update? change ts d = none := by
  rw [← Option.isNone_iff_eq_none, ← Option.not_isSome, isSome_update?, at?_of_descend? h]
  simp [hb]

/-! ## Items -/

/-- The items of a path act on the member of this name in the object that stands at a place, and on
nothing else. -/
structure ActsOn (p : String) (l : List Step) (name : String) (members : Members) (d : Json) :
    Prop where
  /-- `add` gives the object the member. -/
  adds : ∀ v, ∃ d', Item.apply ⟨.add v, p⟩ d = .ok d' ∧
    ChangedAt l (.object members) (.object (Members.insert name v members)) d d'
  /-- `replace` gives the member the value, if there is one. -/
  replaces : ∀ v w, Members.get? name members = some w → ∃ d', Item.apply ⟨.replace v, p⟩ d = .ok d' ∧
    ChangedAt l (.object members) (.object (Members.insert name v members)) d d'
  /-- `remove` takes the member out, if there is one. -/
  removes : ∀ w, Members.get? name members = some w → ∃ d', Item.apply ⟨.remove, p⟩ d = .ok d' ∧
    ChangedAt l (.object members) (.object (Members.erase name members)) d d'
  /-- Without the member `replace` and `remove` are refused. -/
  misses : Members.get? name members = none →
    (∀ v, Item.apply ⟨.replace v, p⟩ d = .error (.pathNotFound p)) ∧
      Item.apply ⟨.remove, p⟩ d = .error (.pathNotFound p)

/-- What an item of a path comes to: the document that has been made, or a refusal if there is none. -/
def madeAt (p : String) : Option Json → Except Refusal Json
  | some d' => .ok d'
  | none => .error (.pathNotFound p)

theorem inParent_written (change : String → Json → Option Json) (ts : List String) (last : String)
    (d : Json) : inParent change (written (ts ++ [last])) d =
      madeAt (written (ts ++ [last])) (update? (change last) ts d) := by
  simp only [inParent, splitLast?_written, tokens?_written, Option.bind_eq_bind, Option.bind_some]
  cases update? (change last) ts d <;> rfl

theorem add_written (v : Json) (ts : List String) (last : String) (d : Json) :
    Item.apply ⟨.add v, written (ts ++ [last])⟩ d =
      madeAt (written (ts ++ [last])) (update? (addIn last v) ts d) :=
  inParent_written (fun last => addIn last v) ts last d

theorem remove_written (ts : List String) (last : String) (d : Json) :
    Item.apply ⟨.remove, written (ts ++ [last])⟩ d =
      madeAt (written (ts ++ [last])) (update? (removeIn last) ts d) :=
  inParent_written removeIn ts last d

theorem replace_written (v : Json) (ts : List String) (last : String) (d : Json) :
    Item.apply ⟨.replace v, written (ts ++ [last])⟩ d =
      madeAt (written (ts ++ [last])) (update? (update? (fun _ => some v) [last]) ts d) := by
  simp only [Item.apply, tokens?_written, Option.bind_eq_bind, Option.bind_some, update?_append]
  cases update? (update? (fun _ => some v) [last]) ts d <;> rfl

theorem exists_made (h : descend? ts d = some a) (hb : change a = some b) (p : String) :
    ∃ d', madeAt p (update? change ts d) = .ok d' ∧ ChangedAt (ts.map .member) a b d d' := by
  obtain ⟨d', hd', hchanged⟩ := exists_update? h hb
  exact ⟨d', by rw [hd', madeAt], hchanged⟩

theorem not_made (h : descend? ts d = some a) (hb : change a = none) (p : String) :
    madeAt p (update? change ts d) = .error (.pathNotFound p) := by
  rw [update?_eq_none h hb, madeAt]

theorem actsOn_written (h : descend? ts d = some (.object members)) (last : String) :
    ActsOn (written (ts ++ [last])) (ts.map .member) last members d where
  adds v := by
    have hput : addIn last v (.object members) = some (.object (Members.insert last v members)) := rfl
    rw [add_written]
    exact exists_made h hput _
  replaces v w hw := by
    rw [replace_written]
    exact exists_made h (addIn_of_get? v hw).symm _
  removes w hw := by
    have htaken : removeIn last (.object members) = some (.object (Members.erase last members)) := by
      simp [removeIn, hw]
    rw [remove_written]
    exact exists_made h htaken _
  misses hnone := by
    refine ⟨fun v => ?_, ?_⟩
    · rw [replace_written, not_made h (by simp [update?, hnone])]
    · rw [remove_written, not_made h (by simp [removeIn, hnone])]

/-! ## One member -/

theorem valueAt?_append (l m : List Step) (d : Json) :
    valueAt? (l ++ m) d = valueAt? l d >>= valueAt? m := by
  induction l generalizing d with
  | nil => rfl
  | cons s l ih =>
    rw [List.cons_append, valueAt?, valueAt?]
    cases s.value? d with
    | none => rfl
    | some v => exact ih v

/-- Where a member has been given a value, only what is at this member or below it has changed. -/
theorem ChangedAt.at_member
    (h : ChangedAt l (.object members) (.object (Members.insert name v members)) d d') :
    valueAt? (l ++ [.member name]) d' = some v ∧
      ∀ m, ¬ l ++ [.member name] <+: m → ¬ m <+: l ++ [.member name] →
        valueAt? m d' = valueAt? m d := by
  refine ⟨?_, fun m hbelow habove => ?_⟩
  · rw [valueAt?_append, h.after]
    simp [valueAt?, Step.value?, Members.get?_insert]
  · by_cases hl : l <+: m
    · obtain ⟨rest, rfl⟩ := hl
      rw [valueAt?_append, valueAt?_append, h.after, h.before]
      cases rest with
      | nil => exact absurd (by simp) habove
      | cons s rest =>
        have hs : s ≠ .member name := by
          rintro rfl
          exact hbelow ⟨rest, by simp⟩
        have hbeside := value?_put_of_ne hs v (.object members)
        rw [Step.put] at hbeside
        simp only [Option.bind_eq_bind, Option.bind_some, valueAt?, hbeside]
    · exact h.beside m hl fun hm => habove (hm.trans (List.prefix_append _ _))

/-- There is a value with nothing below it that does not stand at a place. -/
theorem exists_other (m : List Step) (d : Json) :
    ∃ v, valueAt? m d ≠ some v ∧ ∀ s l, valueAt? (s :: l) v = none := by
  by_cases h : valueAt? m d = some .null
  · exact ⟨.bool true, by rw [h]; simp, fun s l => by cases s <;> rfl⟩
  · exact ⟨.null, h, fun s l => by cases s <;> rfl⟩

/-- **The items of a path act on one member only.** The value that is added has nothing below it and
does not stand at the other member: so it would not be found there. -/
theorem ActsOn.place_eq (h : ActsOn p l name members d) (h' : ActsOn p l' name' members' d) :
    l ++ [.member name] = l' ++ [.member name'] := by
  obtain ⟨v, hv, hbelow⟩ := exists_other (l' ++ [.member name']) d
  obtain ⟨d₁, hadded, hchanged⟩ := h.adds v
  obtain ⟨d₂, hadded', hchanged'⟩ := h'.adds v
  obtain rfl : d₁ = d₂ := Except.ok.inj (hadded.symm.trans hadded')
  obtain ⟨hvalue, hbeside⟩ := hchanged.at_member
  obtain ⟨hvalue', -⟩ := hchanged'.at_member
  -- Nothing is below the value where it stands.
  have hnothing : ∀ {m m' : List Step}, valueAt? m d₁ = some v → valueAt? m' d₁ = some v →
      m <+: m' → m = m' := by
    rintro m _ hm hm' ⟨rest, rfl⟩
    cases rest with
    | nil => rw [List.append_nil]
    | cons s rest =>
      rw [valueAt?_append, hm, Option.bind_eq_bind, Option.bind_some, hbelow] at hm'
      cases hm'
  by_cases hprefix : l ++ [.member name] <+: l' ++ [.member name']
  · exact hnothing hvalue hvalue' hprefix
  · by_cases hprefix' : l' ++ [.member name'] <+: l ++ [.member name]
    · exact (hnothing hvalue' hvalue hprefix').symm
    · rw [hbeside _ hprefix hprefix'] at hvalue'
      exact absurd hvalue' hv

/-! ## Faithful pointers -/

/-- What is to be said of the pointer for some names and a last one, where the names lead to an
object. -/
structure Faithful (ts : List String) (last : String) (members : Members) (d : Json) : Prop where
  /-- The items of the pointer act on the member of the last name in this object. -/
  acts : ActsOn (written (ts ++ [last])) (ts.map .member) last members d
  /-- They act on no other. -/
  only : ∀ l name members', ActsOn (written (ts ++ [last])) l name members' d →
    l ++ [.member name] = (ts ++ [last]).map .member
  /-- Split at its last slash, the pointer is the one for the names before the last, and the last name. -/
  split : splitLast? (written (ts ++ [last])) = some (written ts, last)
  /-- The first of these leads to the object. -/
  parent : resolve? (written ts) d = some (.object members)
  /-- As a whole the pointer leads to the member. -/
  whole : resolve? (written (ts ++ [last])) d = Members.get? last members
  /-- In no document does it make a difference whether the pointer is split. -/
  agree : ∀ j, resolve? (written (ts ++ [last])) j = resolve? (written ts) j >>= at? [last]
  /-- Other names have another pointer, and its items do not act on this member. -/
  apart : ∀ us name members', descend? us d = some (.object members') → us ++ [name] ≠ ts ++ [last] →
    written (us ++ [name]) ≠ written (ts ++ [last]) ∧
      ¬ ActsOn (written (us ++ [name])) (ts.map .member) last members d

theorem at?_singleton (name : String) (members : Members) :
    at? [name] (.object members) = Members.get? name members := by
  rw [at?]
  cases Members.get? name members with
  | none => rfl
  | some v => cases v <;> rfl

/-- **A written pointer is faithful to its names**, whatever characters these have. -/
theorem faithful_of_descend? (h : descend? ts d = some (.object members)) (last : String) :
    Faithful ts last members d where
  acts := actsOn_written h last
  only l name members' hacts := by
    rw [hacts.place_eq (actsOn_written h last), List.map_append, List.map_singleton]
  split := splitLast?_written ts last
  parent := by rw [resolve?_written, at?_of_descend? h]
  whole := by
    rw [resolve?_written, at?_append, at?_of_descend? h, Option.bind_eq_bind, Option.bind_some,
      at?_singleton]
  agree := resolve?_of_splitLast? (splitLast?_written ts last)
  apart us name members' hus hne := by
    refine ⟨fun he => hne (written_inj he), fun hacts => hne ?_⟩
    have hplace := (actsOn_written hus name).place_eq hacts
    rw [← List.map_singleton, ← List.map_append, ← List.map_singleton, ← List.map_append] at hplace
    exact (List.map_inj_right fun _ _ he => Step.member.inj he).mp hplace

/-- Names with both characters that are escaped, an empty one, and one that looks like an escaped name. -/
theorem faithful_of_descend?_nested :
    let d : Json := .object [("a/b", .object [("", .object [("x", .null)]), ("~", .bool true)])]
    let d' : Json := .object
      [("a/b", .object [("", .object [("x", .null), ("~01", .string "y")]), ("~", .bool true)])]
    descend? ["a/b", ""] d = some (.object [("x", .null)]) ∧
      Faithful ["a/b", ""] "~01" [("x", .null)] d ∧
      written ["a/b", "", "~01"] = "/a~1b//~001" ∧
      Item.apply ⟨.add (.string "y"), "/a~1b//~001"⟩ d = .ok d' ∧
      ChangedAt [.member "a/b", .member ""] (.object [("x", .null)])
        (.object [("x", .null), ("~01", .string "y")]) d d' := by
  intro d d'
  have h : descend? ["a/b", ""] d = some (.object [("x", .null)]) := rfl
  have hwritten : written ["a/b", "", "~01"] = "/a~1b//~001" := by decide +kernel
  have hadded : Item.apply ⟨.add (.string "y"), "/a~1b//~001"⟩ d = .ok d' := rfl
  have hfaithful := faithful_of_descend? h "~01"
  obtain ⟨d₁, hd₁, hchanged⟩ := hfaithful.acts.adds (.string "y")
  rw [List.cons_append, List.singleton_append, hwritten, hadded] at hd₁
  obtain rfl : d' = d₁ := Except.ok.inj hd₁
  exact ⟨h, hfaithful, hwritten, hadded, hchanged⟩

end DataRepository.Patch
