import DataRepository.Proofs.Patch.Places

/-! # Operations that agree on a place

`replace` follows all names of a pointer as a document follows them. `add` and `remove`
follow all but the last, and then judge the last one by themselves: as the index of an
item they also take a numeral with a plus sign or with needless zeros, and they need a
last name, which the pointer of the root has not. Apart from that `remove` means the place
that `replace` means, and `add` over a member is `replace`. -/
namespace DataRepository.Patch

/-! ## Patches of one item -/

def adding (p : String) (v : Json) : Json :=
  .object [("op", .string "add"), ("path", .string p), ("value", v)]

def replacing (p : String) (v : Json) : Json :=
  .object [("op", .string "replace"), ("path", .string p), ("value", v)]

def removing (p : String) : Json :=
  .object [("op", .string "remove"), ("path", .string p)]

variable {p : String} {v a b d d' : Json} {l : List Step}

theorem patched_singleton (d i : Json) :
    patched d (.array [i]) = Item.ofJson i >>= fun item => item.apply d := by
  simp only [patched, apply, applyItems]
  cases Item.ofJson i >>= fun item => item.apply d <;> rfl

theorem ofJson_adding (hv : v ≠ .null) : Item.ofJson (adding p v) = .ok ⟨.add v, p⟩ := by
  cases v with
  | null => contradiction
  | _ => rfl

theorem ofJson_replacing (hv : v ≠ .null) : Item.ofJson (replacing p v) = .ok ⟨.replace v, p⟩ := by
  cases v with
  | null => contradiction
  | _ => rfl

theorem patched_adding_null (p : String) (d : Json) :
    patched d (.array [adding p .null]) = .error (.invalidItem "add without value") :=
  patched_singleton d _

theorem patched_adding_eq_ok_iff (hv : v ≠ .null) :
    patched d (.array [adding p v]) = .ok d' ↔
      ∃ ts last, tokens? p = some (ts ++ [last]) ∧ update? (addIn last v) ts d = some d' := by
  rw [patched_singleton, ofJson_adding hv]
  change inParent (fun last => addIn last v) p d = .ok d' ↔ _
  exact inParent_eq_ok_iff

theorem patched_removing_eq_ok_iff :
    patched d (.array [removing p]) = .ok d' ↔
      ∃ ts last, tokens? p = some (ts ++ [last]) ∧ update? (removeIn last) ts d = some d' := by
  rw [patched_singleton, ← inParent_eq_ok_iff]
  rfl

theorem patched_replacing_eq_ok_iff (hv : v ≠ .null) :
    patched d (.array [replacing p v]) = .ok d' ↔
      ∃ ts, tokens? p = some ts ∧ update? (fun _ => some v) ts d = some d' := by
  rw [patched_singleton, ofJson_replacing hv]
  simp only [bind, Except.bind, Item.apply]
  cases htokens : tokens? p with
  | none => simp
  | some ts => cases hupdate : update? (fun _ => some v) ts d <;> simp [hupdate]

/-! ## The last name -/

/-- Whether a token is an index with a plus sign or a needless zero in front. -/
def isPadded (token : String) : Bool :=
  match token.toList with
  | '+' :: _ => true
  | '0' :: _ :: _ => true
  | _ => false

/-- On the way down a token is read as a numeral, but not if it is padded. -/
theorem index?_eq_some_iff {token : String} {i : Nat} :
    index? token = some i ↔ Text.unsigned? token.toList = some i ∧ isPadded token = false := by
  have hplus : Text.digitValue? '+' = none := by decide
  unfold index? isPadded
  cases hcs : token.toList with
  | nil => simp [Text.digits?, Text.unsigned?]
  | cons c cs =>
    by_cases hc : c = '+'
    · subst hc
      simp [Text.digits?, Text.digitsFrom?, hplus]
    · by_cases hzero : c = '0'
      · subst hzero
        cases cs with
        | nil => simp [Text.unsigned?, Text.digits?, Text.digitsFrom?, Text.digitValue?]
        | cons c' cs => simp
      · simp [hc, hzero, Text.unsigned?]

/-- The pointer ends in a padded index of an item that is there. -/
def EndsPadded (p : String) (d : Json) : Prop :=
  ∃ ts last items i, tokens? p = some (ts ++ [last]) ∧ at? ts d = some (.array items) ∧
    isPadded last = true ∧ Text.unsigned? last.toList = some i ∧ i < items.length

theorem isSome_set? {last : String} (v : Json) (members : Members) :
    (update? (fun _ => some v) [last] (.object members)).isSome =
      (Members.get? last members).isSome := by
  cases hget : Members.get? last members <;> simp [update?, hget]

/-- Where the last name is no padded index, there is something to remove exactly if there is something
to replace. -/
theorem isSome_removeIn {last : String} (v : Json)
    (h : ∀ items i, a = .array items → Text.unsigned? last.toList = some i → i < items.length →
      isPadded last = false) :
    (removeIn last a).isSome = (update? (fun _ => some v) [last] a).isSome := by
  cases a with
  | object members =>
    rw [isSome_set?, removeIn]
    cases (Members.get? last members).isSome <;> rfl
  | array items =>
    cases hnumeral : Text.unsigned? last.toList with
    | none =>
      have hindex : index? last = none := by
        rw [Option.eq_none_iff_forall_ne_some]
        intro i hi
        rw [index?_eq_some_iff, hnumeral] at hi
        cases hi.1
      simp [removeIn, update?, hnumeral, hindex]
    | some i =>
      by_cases hi : i < items.length
      · have hindex : index? last = some i := index?_eq_some_iff.mpr ⟨hnumeral, h items i rfl hnumeral hi⟩
        simp [removeIn, removeAt?, update?, hnumeral, hindex, hi]
      · have hset : update? (fun _ => some v) [last] (.array items) = none := by
          cases hindex : index? last with
          | none => simp [update?, hindex]
          | some k =>
            obtain ⟨hk, -⟩ := index?_eq_some_iff.mp hindex
            obtain rfl : i = k := Option.some.inj (hnumeral.symm.trans hk)
            simp [update?, hindex, List.getElem?_eq_none (Nat.not_lt.mp hi)]
        simp [removeIn, removeAt?, hnumeral, hi, hset]
  | _ => rfl

/-! ## Removing -/

/-- A container and what is left of it without what stands one step down. -/
inductive Without : Step → Json → Json → Prop where
  | member (before after : Members) (name : String) (w : Json) :
      Without (.member name) (.object (before ++ (name, w) :: after)) (.object (before ++ after))
  | item (before after : List Json) (w : Json) :
      Without (.item before.length) (.array (before ++ w :: after)) (.array (before ++ after))

theorem exists_erase {name : String} {members : Members} {w : Json}
    (h : Members.get? name members = some w) :
    ∃ before after, members = before ++ (name, w) :: after ∧
      Members.erase name members = before ++ after := by
  induction members with
  | nil => cases h
  | cons m rest ih =>
    obtain ⟨n, x⟩ := m
    by_cases hn : n = name
    · subst hn
      obtain rfl : x = w := by simpa [Members.get?] using h
      exact ⟨[], rest, rfl, by simp [Members.erase]⟩
    · obtain ⟨before, after, hmembers, herase⟩ := ih (by simpa [Members.get?, hn] using h)
      exact ⟨(n, x) :: before, after, by rw [hmembers]; rfl, by simp [Members.erase, hn, herase]⟩

theorem without_eraseIdx {items : List Json} {i : Nat} (h : i < items.length) :
    Without (.item i) (.array items) (.array (items.eraseIdx i)) := by
  have hbefore : (items.take i).length = i := List.length_take_of_le (Nat.le_of_lt h)
  have hitems : items = items.take i ++ items[i] :: items.drop (i + 1) := by simp
  have hwithout := Without.item (items.take i) (items.drop (i + 1)) items[i]
  rw [hbefore, ← hitems, ← List.eraseIdx_eq_take_drop_succ] at hwithout
  exact hwithout

/-- What is removed is one step down, and it is what would be replaced. -/
theorem without_of_removeIn {last : String} {b' : Json} (hb : removeIn last a = some b)
    (hb' : update? (fun _ => some v) [last] a = some b') :
    ∃ s, steps? [last] a = some [s] ∧ Without s a b := by
  obtain ⟨members, w, rfl, hget, rfl⟩ | ⟨items, i, rfl, hnumeral, hi, rfl⟩ := cases_of_removeIn hb
  · obtain ⟨before, after, hmembers, herase⟩ := exists_erase hget
    refine ⟨.member last, steps?_cons rfl hget rfl, ?_⟩
    rw [herase, hmembers]
    exact .member before after last w
  · cases hindex : index? last with
    | none => simp [update?, hindex] at hb'
    | some k =>
      obtain ⟨hk, -⟩ := index?_eq_some_iff.mp hindex
      obtain rfl : i = k := Option.some.inj (hnumeral.symm.trans hk)
      have hstep : step? last (.array items) = some (.item i) := by rw [step?, hindex, Option.map_some]
      exact ⟨.item i, steps?_cons hstep (List.getElem?_eq_getElem hi) rfl, without_eraseIdx hi⟩

/-- Removing and replacing at a pointer succeed together, and where they do, one takes out the member
or the item that the other puts the value in place of. -/
structure OneMeaning (p : String) (v d : Json) : Prop where
  succeeds : (∃ d', patched d (.array [removing p]) = .ok d') ↔
    ∃ d', patched d (.array [replacing p v]) = .ok d'
  acts : ∀ d₁ d₂, patched d (.array [removing p]) = .ok d₁ →
    patched d (.array [replacing p v]) = .ok d₂ →
      ∃ l s a b w, Addresses p (l ++ [s]) d ∧ ChangedAt l a b d d₁ ∧ Without s a b ∧
        ChangedAt (l ++ [s]) w v d d₂

section

variable {ts : List String} {last : String}

theorem exists_removed_iff (htokens : tokens? p = some (ts ++ [last])) :
    (∃ d', patched d (.array [removing p]) = .ok d') ↔ (at? ts d >>= removeIn last).isSome = true := by
  rw [← isSome_update?, Option.isSome_iff_exists]
  refine exists_congr fun d' => patched_removing_eq_ok_iff.trans ⟨?_, fun h => ⟨ts, last, htokens, h⟩⟩
  rintro ⟨ts', last', htokens', h⟩
  obtain ⟨rfl, hlast⟩ := List.append_inj' (Option.some.inj (htokens.symm.trans htokens')) rfl
  obtain rfl : last = last' := by simpa using hlast
  exact h

theorem exists_replaced_iff (hv : v ≠ .null) (htokens : tokens? p = some (ts ++ [last])) :
    (∃ d', patched d (.array [replacing p v]) = .ok d') ↔
      (at? ts d >>= update? (fun _ => some v) [last]).isSome = true := by
  rw [← isSome_update?, Option.isSome_iff_exists]
  refine exists_congr fun d' => (patched_replacing_eq_ok_iff hv).trans ⟨?_, fun h => ⟨_, htokens, ?_⟩⟩
  · rintro ⟨ts', htokens', h⟩
    obtain rfl : ts ++ [last] = ts' := Option.some.inj (htokens.symm.trans htokens')
    rwa [update?_append] at h
  · rwa [update?_append]

end

theorem succeeds_of_not_endsPadded (hp : p ≠ "") (hv : v ≠ .null) (h : ¬ EndsPadded p d) :
    (∃ d', patched d (.array [removing p]) = .ok d') ↔
      ∃ d', patched d (.array [replacing p v]) = .ok d' := by
  cases htokens : tokens? p with
  | none =>
    refine iff_of_false ?_ ?_
    · rintro ⟨d', hd'⟩
      obtain ⟨ts, last, hsome, -⟩ := patched_removing_eq_ok_iff.mp hd'
      rw [htokens] at hsome
      cases hsome
    · rintro ⟨d', hd'⟩
      obtain ⟨ts, hsome, -⟩ := (patched_replacing_eq_ok_iff hv).mp hd'
      rw [htokens] at hsome
      cases hsome
  | some names =>
    rcases List.eq_nil_or_concat names with rfl | ⟨ts, last, rfl⟩
    · exact absurd (tokens?_eq_nil_iff.mp htokens) hp
    · rw [List.concat_eq_append] at htokens
      rw [exists_removed_iff htokens, exists_replaced_iff hv htokens]
      cases hat : at? ts d with
      | none => rfl
      | some a =>
        have hunpadded : ∀ items i, a = .array items → Text.unsigned? last.toList = some i →
            i < items.length → isPadded last = false := fun items i hitems hnumeral hi =>
          Bool.eq_false_iff.mpr fun hpadded =>
            h ⟨ts, last, items, i, htokens, hitems ▸ hat, hpadded, hnumeral, hi⟩
        rw [Option.bind_eq_bind, Option.bind_some, Option.bind_some, isSome_removeIn v hunpadded]

theorem not_succeeds_of_endsPadded (hv : v ≠ .null) (h : EndsPadded p d) :
    (∃ d', patched d (.array [removing p]) = .ok d') ∧
      ¬ ∃ d', patched d (.array [replacing p v]) = .ok d' := by
  obtain ⟨ts, last, items, i, htokens, hat, hpadded, hnumeral, hi⟩ := h
  have hindex : index? last = none := by
    rw [Option.eq_none_iff_forall_ne_some]
    intro k hk
    rw [(index?_eq_some_iff.mp hk).2] at hpadded
    cases hpadded
  rw [exists_removed_iff htokens, exists_replaced_iff hv htokens, hat]
  simp [removeIn, removeAt?, update?, hnumeral, hi, hindex]

/-- What is removed and what is replaced is at the place to which the pointer leads. -/
theorem acts_alike {d₁ d₂ : Json} (hv : v ≠ .null) (h₁ : patched d (.array [removing p]) = .ok d₁)
    (h₂ : patched d (.array [replacing p v]) = .ok d₂) :
    ∃ l s a b w, Addresses p (l ++ [s]) d ∧ ChangedAt l a b d d₁ ∧ Without s a b ∧
      ChangedAt (l ++ [s]) w v d d₂ := by
  obtain ⟨ts, last, htokens, hremove⟩ := patched_removing_eq_ok_iff.mp h₁
  obtain ⟨ts', htokens', hreplace⟩ := (patched_replacing_eq_ok_iff hv).mp h₂
  obtain rfl : ts ++ [last] = ts' := Option.some.inj (htokens.symm.trans htokens')
  obtain ⟨l, a, b, hl, hb, hremoved⟩ := update?_changedAt hremove
  obtain ⟨m, w, v', hm, hv', hreplaced⟩ := update?_changedAt hreplace
  obtain rfl : v = v' := Option.some.inj hv'
  -- The value is put where the parent of the place is led to by the names before the last.
  rw [update?_append] at hreplace
  obtain ⟨l', a', b', hl', hb', hparent⟩ := update?_changedAt hreplace
  obtain rfl : l = l' := Option.some.inj (hl.symm.trans hl')
  obtain rfl : a = a' := Option.some.inj (hremoved.before.symm.trans hparent.before)
  obtain ⟨s, hs, hwithout⟩ := without_of_removeIn hb hb'
  have hplace : steps? (ts ++ [last]) d = some (l ++ [s]) :=
    steps?_append_eq_some_iff.mpr ⟨l, a, [s], hl, hremoved.before, hs, rfl⟩
  obtain rfl : m = l ++ [s] := Option.some.inj (hm.symm.trans hplace)
  exact ⟨l, s, a, b, w, ⟨_, htokens, hplace⟩, hremoved, hwithout, hreplaced⟩

/-- **`remove` and `replace` give a pointer one meaning, unless it ends in a padded index**: then
`remove` takes out the item and `replace` finds none. -/
theorem oneMeaning_iff (d : Json) {p : String} {v : Json} (hp : p ≠ "") (hv : v ≠ .null) :
    OneMeaning p v d ↔ ¬ EndsPadded p d := by
  constructor
  · intro hmeaning hpadded
    obtain ⟨hremoved, hreplaced⟩ := not_succeeds_of_endsPadded hv hpadded
    exact hreplaced (hmeaning.succeeds.mp hremoved)
  · intro hpadded
    exact ⟨succeeds_of_not_endsPadded hp hv hpadded, fun d₁ d₂ h₁ h₂ => acts_alike hv h₁ h₂⟩

/-- An item of a list below two members, one of them with both characters that are escaped. -/
theorem oneMeaning_item :
    let d : Json := .object [("a", .object [("/~", .array [.null, .array [.bool true], .null])])]
    "/a/~1~0/1" ≠ "" ∧ Json.bool false ≠ .null ∧ OneMeaning "/a/~1~0/1" (.bool false) d := by
  intro d
  have hp : "/a/~1~0/1" ≠ "" := by decide
  have hv : Json.bool false ≠ .null := by decide
  refine ⟨hp, hv, (oneMeaning_iff d hp hv).mpr ?_⟩
  rintro ⟨ts, last, items, i, htokens, -, hpadded, -⟩
  have hnames : tokens? "/a/~1~0/1" = some (["a", "/~"] ++ ["1"]) := by decide +kernel
  obtain ⟨-, hlast⟩ := List.append_inj' (Option.some.inj (hnames.symm.trans htokens)) rfl
  obtain rfl : "1" = last := by simpa using hlast
  exact absurd hpadded (by decide)

/-- With a needless zero or a plus sign before it, the index of an item is removed but not replaced. -/
theorem padded_removed_not_replaced :
    let d : Json := .array [.null, .bool true]
    (∀ p ∈ ["/01", "/+1"],
        patched d (.array [removing p]) = .ok (.array [.null]) ∧
          patched d (.array [replacing p (.bool false)]) = .error (.pathNotFound p)) ∧
      ¬ OneMeaning "/01" (.bool false) d := by
  intro d
  have hall : ∀ p ∈ ["/01", "/+1"],
      patched d (.array [removing p]) = .ok (.array [.null]) ∧
        patched d (.array [replacing p (.bool false)]) = .error (.pathNotFound p) := by
    intro p hp
    obtain rfl | rfl : p = "/01" ∨ p = "/+1" := by simpa using hp
    all_goals exact ⟨rfl, rfl⟩
  refine ⟨hall, fun h => ?_⟩
  obtain ⟨hremoved, hrefused⟩ := hall "/01" (by decide)
  obtain ⟨d', hd'⟩ := h.succeeds.mp ⟨_, hremoved⟩
  rw [hrefused] at hd'
  cases hd'

/-! ## Adding over what is there -/

theorem addIn_of_get? {name : String} {members : Members} {w : Json} (v : Json)
    (h : Members.get? name members = some w) :
    addIn name v (.object members) = update? (fun _ => some v) [name] (.object members) := by
  simp [addIn, update?, h]

/-- A pointer to a member leads by its other names to an object that has the member. -/
theorem exists_of_addresses_member {name : String} (h : Addresses p (l ++ [.member name]) d) :
    ∃ ts members w, tokens? p = some (ts ++ [name]) ∧ at? ts d = some (.object members) ∧
      Members.get? name members = some w := by
  obtain ⟨names, htokens, hsteps⟩ := h
  rcases List.eq_nil_or_concat names with rfl | ⟨ts, last, rfl⟩
  · simp [steps?] at hsteps
  · rw [List.concat_eq_append] at htokens hsteps
    obtain ⟨l₁, a, l₂, hl₁, ha, hl₂, happend⟩ := steps?_append_eq_some_iff.mp hsteps
    obtain ⟨s, w, rest, hs, hw, hrest, rfl⟩ := exists_of_steps?_cons hl₂
    obtain rfl : rest = [] := (Option.some.inj hrest).symm
    obtain ⟨-, hlast⟩ := List.append_inj' happend rfl
    obtain rfl : Step.member name = s := by simpa using hlast
    cases a with
    | object members =>
      obtain rfl : last = name := by simpa [step?] using hs
      exact ⟨ts, members, w, htokens, by rw [at?_of_steps? hl₁, ha], hw⟩
    | array items => simp [step?] at hs
    | _ => cases hs

/-- Where a pointer leads to a member, adding and replacing succeed and yield one document. -/
theorem patched_adding_of_addresses_member {name : String} (hv : v ≠ .null)
    (h : Addresses p (l ++ [.member name]) d) :
    ∃ d', patched d (.array [adding p v]) = .ok d' ∧ patched d (.array [replacing p v]) = .ok d' := by
  obtain ⟨ts, members, w, htokens, hat, hget⟩ := exists_of_addresses_member h
  obtain ⟨d', hd'⟩ : ∃ d', update? (update? (fun _ => some v) [name]) ts d = some d' := by
    rw [← Option.isSome_iff_exists, isSome_update?, hat, Option.bind_eq_bind, Option.bind_some,
      isSome_set?, hget, Option.isSome_some]
  refine ⟨d', (patched_adding_eq_ok_iff hv).mpr ⟨ts, name, htokens, ?_⟩,
    (patched_replacing_eq_ok_iff hv).mpr ⟨_, htokens, update?_append _ ts [name] d ▸ hd'⟩⟩
  rw [← hd']
  refine update?_congr fun a ha => ?_
  obtain rfl : a = .object members := Option.some.inj (ha.symm.trans hat)
  exact addIn_of_get? v hget

/-- What is replaced is at the place of the pointer. -/
theorem changedAt_of_replaced (hv : v ≠ .null) (h : Addresses p l d)
    (hd' : patched d (.array [replacing p v]) = .ok d') : ∃ w, ChangedAt l w v d d' := by
  obtain ⟨ts, htokens, hl⟩ := h
  obtain ⟨ts', htokens', hupdate⟩ := (patched_replacing_eq_ok_iff hv).mp hd'
  obtain rfl : ts = ts' := Option.some.inj (htokens.symm.trans htokens')
  obtain ⟨l', w, v', hl', hv', hchanged⟩ := update?_changedAt hupdate
  obtain rfl : v = v' := Option.some.inj hv'
  obtain rfl : l = l' := Option.some.inj (hl.symm.trans hl')
  exact ⟨w, hchanged⟩

/-- Adding the value and replacing by it both succeed and yield one document, in which the value is at
the place and nothing else is changed. -/
def BothPut (p : String) (l : List Step) (v d : Json) : Prop :=
  ∃ d' w, patched d (.array [adding p v]) = .ok d' ∧ patched d (.array [replacing p v]) = .ok d' ∧
    ChangedAt l w v d d'

/-- **`add` over the root or over a member is `replace`, unless the place is the root or the value is
`null`**: `add` takes no pointer without a name, and to an item a `null` is no value. -/
theorem bothPut_iff (v : Json) {p : String} {l : List Step} {d : Json} (h : Addresses p l d)
    (hplace : l = [] ∨ ∃ parent name, l = parent ++ [.member name]) :
    BothPut p l v d ↔ p ≠ "" ∧ v ≠ .null := by
  constructor
  · rintro ⟨d', w, hadded, hreplaced, hchanged⟩
    have hv : v ≠ .null := by
      rintro rfl
      rw [patched_adding_null] at hadded
      cases hadded
    refine ⟨?_, hv⟩
    rintro rfl
    obtain ⟨ts, last, htokens, -⟩ := (patched_adding_eq_ok_iff hv).mp hadded
    rw [tokens?_eq_nil_iff.mpr rfl] at htokens
    simp at htokens
  · rintro ⟨hp, hv⟩
    rcases hplace with rfl | ⟨parent, name, rfl⟩
    · obtain ⟨ts, htokens, hsteps⟩ := h
      cases ts with
      | nil => exact absurd (tokens?_eq_nil_iff.mp htokens) hp
      | cons t ts =>
        obtain ⟨s, w, rest, -, -, -, hcons⟩ := exists_of_steps?_cons hsteps
        cases hcons
    · obtain ⟨d', hadded, hreplaced⟩ := patched_adding_of_addresses_member hv h
      obtain ⟨w, hchanged⟩ := changedAt_of_replaced hv h hreplaced
      exact ⟨d', w, hadded, hreplaced, hchanged⟩

/-- A member below an item. -/
theorem bothPut_nested :
    let d : Json := .array [.null, .object [("a/b", .null), ("c", .bool true)]]
    let l : List Step := [.item 1, .member "a/b"]
    Addresses "/1/a~1b" l d ∧ (∃ parent name, l = parent ++ [.member name]) ∧
      BothPut "/1/a~1b" l (.string "x") d := by
  intro d l
  have haddresses : Addresses "/1/a~1b" l d := ⟨["1", "a/b"], by decide +kernel, by decide +kernel⟩
  have hplace : ∃ parent name, l = parent ++ [.member name] := ⟨[.item 1], "a/b", rfl⟩
  exact ⟨haddresses, hplace,
    (bothPut_iff (.string "x") haddresses (.inr hplace)).mpr ⟨by decide, by decide⟩⟩

/-- The root is replaced, but nothing is added over it; and neither operation puts `null` at a member. -/
theorem root_and_null_not_put :
    let d : Json := .object [("a", .bool true)]
    (patched d (.array [adding "" (.bool false)]) =
        .error (.invalidItem "invalid JSON pointer: ") ∧
      patched d (.array [replacing "" (.bool false)]) = .ok (.bool false)) ∧
    (patched d (.array [adding "/a" .null]) = .error (.invalidItem "add without value") ∧
      patched d (.array [replacing "/a" .null]) = .error (.invalidItem "replace without value")) ∧
    (Addresses "" [] d ∧ ¬ BothPut "" [] (.bool false) d) ∧
    (Addresses "/a" [.member "a"] d ∧ ¬ BothPut "/a" [.member "a"] .null d) := by
  intro d
  have hroot : patched d (.array [adding "" (.bool false)]) =
      .error (.invalidItem "invalid JSON pointer: ") := rfl
  have hnull : patched d (.array [adding "/a" .null]) = .error (.invalidItem "add without value") := rfl
  refine ⟨⟨hroot, rfl⟩, ⟨hnull, rfl⟩, ⟨⟨[], rfl, rfl⟩, ?_⟩, ⟨["a"], rfl, rfl⟩, ?_⟩
  · rintro ⟨d', w, hadded, -⟩
    rw [hroot] at hadded
    cases hadded
  · rintro ⟨d', w, hadded, -⟩
    rw [hnull] at hadded
    cases hadded

end DataRepository.Patch
