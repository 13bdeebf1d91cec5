import DataRepository.Patch
import DataRepository.Proofs.Steps
import DataRepository.Proofs.Text.Split

/-! # Places of a document

A pointer is a list of names, and the document decides what they mean: a name is a member
of an object or the index of an item of an array. Here a place is the list of the steps
that are meant. `update?_changedAt` says what an update does at the place that its names
lead to and leaves everything beside the place as it was, and `inParent_eq_ok_iff` that it
makes no difference whether the last name is split off the pointer or off its names. -/
namespace DataRepository.Patch

/-! ## Steps -/

/-- One step down in a document: to a member of an object, or to an item of an array. -/
inductive Step where
  | member (name : String)
  | item (index : Nat)
deriving DecidableEq

def Step.value? : Step → Json → Option Json
  | .member name, .object members => Members.get? name members
  | .item i, .array items => items[i]?
  | _, _ => none

def valueAt? : List Step → Json → Option Json
  | [], d => some d
  | s :: l, d => s.value? d >>= valueAt? l

def step? (name : String) : Json → Option Step
  | .object _ => some (.member name)
  | .array _ => (index? name).map .item
  | _ => none

/-- The steps along which the names lead to a value. -/
def steps? : List String → Json → Option (List Step)
  | [], _ => some []
  | t :: ts, d => do
    let s ← step? t d
    let v ← s.value? d
    return s :: (← steps? ts v)

/-- The pointer leads along these steps. -/
def Addresses (p : String) (l : List Step) (d : Json) : Prop :=
  ∃ ts, tokens? p = some ts ∧ steps? ts d = some l

/-- From `a` to `b` at one place, and no change beside it: whatever is neither on the way to the place
nor below it is the same in both documents. -/
structure ChangedAt (l : List Step) (a b d d' : Json) : Prop where
  before : valueAt? l d = some a
  after : valueAt? l d' = some b
  beside : ∀ m, ¬ l <+: m → ¬ m <+: l → valueAt? m d' = valueAt? m d

variable {ts us : List String} {l m : List Step} {s : Step} {a b d d' v v' : Json}

theorem steps?_cons {t : String} (hs : step? t d = some s) (hv : s.value? d = some v)
    (hl : steps? ts v = some l) : steps? (t :: ts) d = some (s :: l) := by
  simp only [steps?, hs, hv, hl, Option.bind_eq_bind, Option.bind_some, Option.pure_def]

theorem exists_of_steps?_cons {t : String} (h : steps? (t :: ts) d = some l) :
    ∃ s v l', step? t d = some s ∧ s.value? d = some v ∧ steps? ts v = some l' ∧ l = s :: l' := by
  simp only [steps?, Option.bind_eq_bind, Option.bind_eq_some_iff, Option.pure_def,
    Option.some.injEq] at h
  obtain ⟨s, hs, v, hv, l', hl, rfl⟩ := h
  exact ⟨s, v, l', hs, hv, hl, rfl⟩

theorem at?_cons (t : String) (ts : List String) (d : Json) :
    at? (t :: ts) d = step? t d >>= fun s => s.value? d >>= at? ts := by
  cases d with
  | array items => cases hi : index? t <;> simp [at?, step?, Step.value?, hi]
  | _ => rfl

/-- What the names lead to is what stands at the end of their steps. -/
theorem at?_of_steps? (h : steps? ts d = some l) : at? ts d = valueAt? l d := by
  induction ts generalizing d l with
  | nil =>
    cases h
    cases d <;> rfl
  | cons t ts ih =>
    obtain ⟨s, v, l', hs, hv, hl', rfl⟩ := exists_of_steps?_cons h
    simp only [at?_cons, valueAt?, hs, hv, Option.bind_eq_bind, Option.bind_some, ih hl']

/-- Names that follow one another lead along steps that do. -/
theorem steps?_append_eq_some_iff : steps? (ts ++ us) d = some l ↔
    ∃ l₁ a l₂, steps? ts d = some l₁ ∧ valueAt? l₁ d = some a ∧ steps? us a = some l₂ ∧
      l = l₁ ++ l₂ := by
  induction ts generalizing d l with
  | nil => simp [steps?, valueAt?]
  | cons t ts ih =>
    constructor
    · intro h
      obtain ⟨s, v, l', hs, hv, hl', rfl⟩ := exists_of_steps?_cons h
      obtain ⟨l₁, a, l₂, hl₁, ha, hl₂, rfl⟩ := ih.mp hl'
      refine ⟨s :: l₁, a, l₂, steps?_cons hs hv hl₁, ?_, hl₂, rfl⟩
      rw [valueAt?, hv]
      exact ha
    · rintro ⟨l₁, a, l₂, hl₁, ha, hl₂, rfl⟩
      obtain ⟨s, v, l', hs, hv, hl', rfl⟩ := exists_of_steps?_cons hl₁
      rw [valueAt?, hv] at ha
      exact steps?_cons hs hv (ih.mpr ⟨l', a, l₂, hl', ha, hl₂, rfl⟩)

/-! ## Changes at a place -/

theorem ChangedAt.root (a b : Json) : ChangedAt [] a b a b :=
  ⟨rfl, rfl, fun m hm => absurd (List.nil_prefix (l := m)) hm⟩

/-- A change one step further down, where all other steps lead to what they led to. -/
theorem ChangedAt.below (h : ChangedAt l a b v v') (hv : s.value? d = some v)
    (hv' : s.value? d' = some v') (hother : ∀ s', s' ≠ s → s'.value? d' = s'.value? d) :
    ChangedAt (s :: l) a b d d' := by
  refine ⟨?_, ?_, fun m hbelow habove => ?_⟩
  · rw [valueAt?, hv]
    exact h.before
  · rw [valueAt?, hv']
    exact h.after
  · cases m with
    | nil => exact absurd List.nil_prefix habove
    | cons s' m =>
      by_cases hs : s' = s
      · subst hs
        rw [valueAt?, valueAt?, hv, hv']
        exact h.beside m (fun hp => hbelow (List.cons_prefix_cons.mpr ⟨rfl, hp⟩))
          fun hp => habove (List.cons_prefix_cons.mpr ⟨rfl, hp⟩)
      · rw [valueAt?, valueAt?, hother s' hs]

/-! ## One step down -/

/-- The document with this value one step down. -/
def Step.put : Step → Json → Json → Json
  | .member name, v, .object members => .object (Members.insert name v members)
  | .item i, v, .array items => .array (items.set i v)
  | _, _, d => d

theorem step?_put (t : String) (s : Step) (w d : Json) : step? t (s.put w d) = step? t d := by
  cases s <;> cases d <;> rfl

theorem value?_put (h : s.value? d = some v) (w : Json) : s.value? (s.put w d) = some w := by
  cases s with
  | member name =>
    cases d with
    | object members => rw [Step.put, Step.value?, Members.get?_insert, if_pos rfl]
    | _ => cases h
  | item i =>
    cases d with
    | array items =>
      obtain ⟨hi, -⟩ := List.getElem?_eq_some_iff.mp h
      rw [Step.put, Step.value?, List.getElem?_set_self hi]
    | _ => cases h

theorem value?_put_of_ne {s' : Step} (h : s' ≠ s) (w d : Json) :
    s'.value? (s.put w d) = s'.value? d := by
  cases d with
  | object members =>
    cases s <;> cases s' <;> try rfl
    rename_i name other
    have hne : other ≠ name := fun he => h (he ▸ rfl)
    rw [Step.put, Step.value?, Step.value?, Members.get?_insert, if_neg hne]
  | array items =>
    cases s <;> cases s' <;> try rfl
    rename_i i other
    have hne : i ≠ other := fun he => h (he ▸ rfl)
    rw [Step.put, Step.value?, Step.value?, List.getElem?_set_ne hne]
  | _ => cases s <;> rfl

theorem put_put (s : Step) (v w d : Json) : s.put w (s.put v d) = s.put w d := by
  cases s <;> cases d <;> simp [Step.put, Members.insert_insert]

variable {change : Json → Option Json}

/-- An update goes one step down with its first name, and puts back what has been made there. -/
theorem update?_cons (change : Json → Option Json) (t : String) (ts : List String) (d : Json) :
    update? change (t :: ts) d = step? t d >>= fun s => s.value? d >>= fun v =>
      (update? change ts v).map fun w => s.put w d := by
  cases d with
  | object members =>
    cases hv : Members.get? t members with
    | none => simp [update?, step?, Step.value?, hv]
    | some v => cases hw : update? change ts v <;> simp [update?, step?, Step.value?, Step.put, hv, hw]
  | array items =>
    cases hi : index? t with
    | none => simp [update?, step?, hi]
    | some i =>
      cases hv : items[i]? with
      | none => simp [update?, step?, Step.value?, hi, hv]
      | some v =>
        cases hw : update? change ts v <;> simp [update?, step?, Step.value?, Step.put, hi, hv, hw]
  | _ => rfl

theorem exists_of_update?_cons {t : String} (h : update? change (t :: ts) d = some d') :
    ∃ s v w, step? t d = some s ∧ s.value? d = some v ∧ update? change ts v = some w ∧
      d' = s.put w d := by
  simp only [update?_cons, Option.bind_eq_bind, Option.bind_eq_some_iff, Option.map_eq_some_iff] at h
  obtain ⟨s, hs, v, hv, w, hw, rfl⟩ := h
  exact ⟨s, v, w, hs, hv, hw, rfl⟩

/-! ## Updates -/

/-- **An update changes the place that its names lead to, as it is told to, and nothing beside it.** -/
theorem update?_changedAt (h : update? change ts d = some d') :
    ∃ l a b, steps? ts d = some l ∧ change a = some b ∧ ChangedAt l a b d d' := by
  induction ts generalizing d d' with
  | nil => exact ⟨[], d, d', rfl, h, .root d d'⟩
  | cons t ts ih =>
    obtain ⟨s, v, w, hs, hv, hw, rfl⟩ := exists_of_update?_cons h
    obtain ⟨l, a, b, hl, hb, hchanged⟩ := ih hw
    exact ⟨_, a, b, steps?_cons hs hv hl, hb,
      hchanged.below hv (value?_put hv w) fun s' hs' => value?_put_of_ne hs' w d⟩

theorem exists_at?_of_update? (h : update? change ts d = some d') :
    ∃ a b, at? ts d = some a ∧ change a = some b := by
  obtain ⟨l, a, b, hl, hb, hchanged⟩ := update?_changedAt h
  exact ⟨a, b, (at?_of_steps? hl).trans hchanged.before, hb⟩

/-- An update succeeds where its names lead to a value that can be changed. -/
theorem isSome_update? (change : Json → Option Json) (ts : List String) (d : Json) :
    (update? change ts d).isSome = (at? ts d >>= change).isSome := by
  induction ts generalizing d with
  | nil => cases d <;> rfl
  | cons t ts ih =>
    rw [update?_cons, at?_cons]
    cases step? t d with
    | none => rfl
    | some s =>
      cases hv : s.value? d with
      | none => simp [hv]
      | some v => simpa [hv] using ih v

/-- An update is decided by what it makes of the value that its names lead to. -/
theorem update?_congr {change' : Json → Option Json}
    (h : ∀ a, at? ts d = some a → change a = change' a) : update? change ts d = update? change' ts d := by
  induction ts generalizing d with
  | nil => exact h d (by cases d <;> rfl)
  | cons t ts ih =>
    rw [update?_cons, update?_cons]
    cases hs : step? t d with
    | none => rfl
    | some s =>
      cases hv : s.value? d with
      | none => simp [hv]
      | some v =>
        have hinner := ih (d := v) fun a ha => h a (by simpa [at?_cons, hs, hv] using ha)
        simp [hv, hinner]

/-- Updates follow one list of names after the other. -/
theorem update?_append (change : Json → Option Json) (ts us : List String) (d : Json) :
    update? change (ts ++ us) d = update? (update? change us) ts d := by
  induction ts generalizing d with
  | nil => rfl
  | cons t ts ih => simp only [List.cons_append, update?_cons, ih]

/-! ## The last name -/

/-- The names of a pointer are its parts after the first, which is empty. -/
theorem tokens?_of_splitOn {p : String} {first : List Char} {rest : List (List Char)}
    (h : p.toList.splitOn '/' = first :: rest) :
    tokens? p =
      if first = [] then some (rest.map fun t => String.ofList (unescape t)) else none := by
  cases rest with
  | nil =>
    obtain ⟨hp, hslash⟩ := Text.splitOn_eq_singleton_iff.mp h
    rw [tokens?, hp]
    cases first with
    | nil => rfl
    | cons c cs =>
      have hc : c ≠ '/' := fun he => hslash (he ▸ List.mem_cons_self)
      simp [hc]
  | cons next rest =>
    obtain ⟨after, hp, hslash, hafter⟩ := (Text.splitOn_eq_cons_iff (List.cons_ne_nil _ _)).mp h
    rw [tokens?, hp]
    cases first with
    | nil => simp [hafter]
    | cons c cs =>
      have hc : c ≠ '/' := fun he => hslash (he ▸ List.mem_cons_self)
      simp [hc]

theorem tokens?_eq_nil_iff {p : String} : tokens? p = some [] ↔ p = "" := by
  obtain ⟨first, rest, hparts⟩ := List.exists_cons_of_ne_nil (List.splitOn_ne_nil '/' p.toList)
  rw [tokens?_of_splitOn hparts]
  constructor
  · intro h
    obtain ⟨rfl, rfl⟩ : first = [] ∧ rest = [] := by simpa using h
    exact String.toList_eq_nil_iff.mp (Text.splitOn_eq_singleton_iff.mp hparts).1
  · rintro rfl
    obtain ⟨rfl, rfl⟩ : [] = first ∧ [] = rest := by simpa using hparts
    rfl

/-- **Split off the pointer, the last name is the last of its names.** -/
theorem tokens?_of_splitLast? {p parent last : String} (h : splitLast? p = some (parent, last)) :
    tokens? p = (tokens? parent).map (· ++ [last]) := by
  unfold splitLast? at h
  split at h
  · rename_i lastPart parentPart before hreversed
    simp only [Option.some.injEq, Prod.mk.injEq] at h
    obtain ⟨rfl, rfl⟩ := h
    have hparts : p.toList.splitOn '/' = (parentPart :: before).reverse ++ [lastPart] := by
      rw [← List.reverse_reverse (p.toList.splitOn '/'), hreversed, List.reverse_cons]
    obtain ⟨first, rest, hfront⟩ : ∃ first rest, (parentPart :: before).reverse = first :: rest :=
      List.exists_cons_of_ne_nil (by simp)
    rw [hfront] at hparts ⊢
    have hslash : ∀ part ∈ first :: rest, '/' ∉ part := fun part hpart =>
      Text.not_mem_of_mem_splitOn (hparts ▸ List.mem_append_left _ hpart)
    have hparent : (String.ofList (['/'].intercalate (first :: rest))).toList.splitOn '/' =
        first :: rest := by
      rw [String.toList_ofList]
      exact List.splitOn_intercalate '/' hslash (List.cons_ne_nil _ _)
    rw [tokens?_of_splitOn hparts, tokens?_of_splitOn hparent]
    split <;> simp
  · cases h

theorem tokens?_of_splitLast?_none {p : String} (hp : p ≠ "") (h : splitLast? p = none) :
    tokens? p = none := by
  obtain ⟨first, rest, hparts⟩ := List.exists_cons_of_ne_nil (List.splitOn_ne_nil '/' p.toList)
  cases rest with
  | nil =>
    obtain ⟨hfirst, -⟩ := Text.splitOn_eq_singleton_iff.mp hparts
    have hne : first ≠ [] := by
      rintro rfl
      exact hp (String.toList_eq_nil_iff.mp hfirst)
    rw [tokens?_of_splitOn hparts, if_neg hne]
  | cons next rest =>
    -- A pointer of two parts or more has a last name.
    obtain ⟨last, parent, before, hreversed⟩ :
        ∃ last parent before, (first :: next :: rest).reverse = last :: parent :: before := by
      match hrev : (first :: next :: rest).reverse with
      | [] => simp at hrev
      | [_] => simpa using congrArg List.length hrev
      | last :: parent :: before => exact ⟨last, parent, before, rfl⟩
    rw [splitLast?, hparts, hreversed] at h
    cases h

/-- **A change in the parent of a place is an update along all names but the last.** -/
theorem inParent_eq_ok_iff {change : String → Json → Option Json} {p : String} :
    inParent change p d = .ok d' ↔
      ∃ ts last, tokens? p = some (ts ++ [last]) ∧ update? (change last) ts d = some d' := by
  unfold inParent
  constructor
  · intro h
    split at h
    · cases h
    · rename_i parent last hlast
      split at h
      · rename_i j hj
        cases h
        obtain ⟨ts, hts, hupdate⟩ := Option.bind_eq_some_iff.mp hj
        exact ⟨ts, last, by rw [tokens?_of_splitLast? hlast, hts, Option.map_some], hupdate⟩
      · cases h
  · rintro ⟨ts, last, htokens, hupdate⟩
    cases hsplit : splitLast? p with
    | none =>
      have hp : p ≠ "" := by
        rintro rfl
        simp [tokens?] at htokens
      rw [tokens?_of_splitLast?_none hp hsplit] at htokens
      cases htokens
    | some parts =>
      obtain ⟨parent, last'⟩ := parts
      rw [tokens?_of_splitLast? hsplit, Option.map_eq_some_iff] at htokens
      obtain ⟨ts', hparent, happend⟩ := htokens
      obtain ⟨rfl, hlast⟩ := List.append_inj' happend rfl
      obtain rfl : last' = last := by simpa using hlast
      simp only [hparent, Option.bind_eq_bind, Option.bind_some, hupdate]

end DataRepository.Patch
