import DataRepository.Number

/-!
# Documents

JSON documents as values.  The members of an object are a list in ascending order of their names,
by code point, with no name twice; `Json.Canonical` says so of a whole document, and the operations
of `Members` keep it.

- `Members.get?_insert`, `Members.get?_erase`: what the two updates do to every look-up;
- `Members.ascending_insert`, `Members.ascending_erase`: the updates keep the order;
- `Members.eq_of_get?`: members in order are determined by their look-ups;
- `Members.insert_insert`, `Members.erase_insert`, `Members.insert_erase`: what two updates of one
  member come to.
-/
namespace DataRepository

inductive Json where
  | null
  | bool (value : Bool)
  | number (value : Number)
  | string (value : String)
  | array (items : List Json)
  | object (members : List (String × Json))
deriving Inhabited

abbrev Members := List (String × Json)

namespace Members

def get? (name : String) : Members → Option Json
  | [] => none
  | (n, v) :: rest => if n = name then some v else get? name rest

/-- Gives the member this value, in its place if it is new. -/
def insert (name : String) (value : Json) : Members → Members
  | [] => [(name, value)]
  | (n, v) :: rest =>
    if name < n then (name, value) :: (n, v) :: rest
    else if n = name then (name, value) :: rest
    else (n, v) :: insert name value rest

/-- Adds the member in its place, unless there is one of this name. -/
def insertNew (name : String) (value : Json) : Members → Members
  | [] => [(name, value)]
  | (n, v) :: rest =>
    if name < n then (name, value) :: (n, v) :: rest
    else if n = name then (n, v) :: rest
    else (n, v) :: insertNew name value rest

def erase (name : String) : Members → Members
  | [] => []
  | (n, v) :: rest => if n = name then rest else (n, v) :: erase name rest

/-- The members read from a text, the one read last at the front: of a repeated name the value read
last stays. -/
def ofReversed (ms : List (String × Json)) : Members :=
  ms.foldl (fun acc (name, value) => insertNew name value acc) []

def Ascending (ms : Members) : Prop :=
  ms.Pairwise fun a b => a.1 < b.1

instance (ms : Members) : Decidable (Ascending ms) :=
  inferInstanceAs (Decidable (List.Pairwise _ _))

end Members

/-! ## Equality -/

mutual
def Json.decEq : (a b : Json) → Decidable (a = b)
  | .null, .null => isTrue rfl
  | .bool a, .bool b => if h : a = b then isTrue (h ▸ rfl) else isFalse (by simp [h])
  | .number a, .number b => if h : a = b then isTrue (h ▸ rfl) else isFalse (by simp [h])
  | .string a, .string b => if h : a = b then isTrue (h ▸ rfl) else isFalse (by simp [h])
  | .array a, .array b => match Json.decEqItems a b with
    | isTrue h => isTrue (h ▸ rfl)
    | isFalse h => isFalse (by simp [h])
  | .object a, .object b => match Json.decEqMembers a b with
    | isTrue h => isTrue (h ▸ rfl)
    | isFalse h => isFalse (by simp [h])
  | .null, .bool _ | .null, .number _ | .null, .string _ | .null, .array _ | .null, .object _
  | .bool _, .null | .bool _, .number _ | .bool _, .string _ | .bool _, .array _
  | .bool _, .object _ | .number _, .null | .number _, .bool _ | .number _, .string _
  | .number _, .array _ | .number _, .object _ | .string _, .null | .string _, .bool _
  | .string _, .number _ | .string _, .array _ | .string _, .object _ | .array _, .null
  | .array _, .bool _ | .array _, .number _ | .array _, .string _ | .array _, .object _
  | .object _, .null | .object _, .bool _ | .object _, .number _ | .object _, .string _
  | .object _, .array _ => isFalse nofun
termination_by structural a => a

def Json.decEqItems : (a b : List Json) → Decidable (a = b)
  | [], [] => isTrue rfl
  | a :: as, b :: bs => match Json.decEq a b, Json.decEqItems as bs with
    | isTrue h, isTrue h' => isTrue (h ▸ h' ▸ rfl)
    | isFalse h, _ => isFalse (by simp [h])
    | _, isFalse h => isFalse (by simp [h])
  | [], _ :: _ | _ :: _, [] => isFalse nofun
termination_by structural a => a

def Json.decEqMembers : (a b : List (String × Json)) → Decidable (a = b)
  | [], [] => isTrue rfl
  | a :: as, b :: bs => match Json.decEqMember a b, Json.decEqMembers as bs with
    | isTrue h, isTrue h' => isTrue (h ▸ h' ▸ rfl)
    | isFalse h, _ => isFalse (by simp [h])
    | _, isFalse h => isFalse (by simp [h])
  | [], _ :: _ | _ :: _, [] => isFalse nofun
termination_by structural a => a

def Json.decEqMember : (a b : String × Json) → Decidable (a = b)
  | (m, a), (n, b) =>
    if h : m = n then
      match Json.decEq a b with
      | isTrue h' => isTrue (h ▸ h' ▸ rfl)
      | isFalse h' => isFalse (by simp [h'])
    else isFalse (by simp [h])
termination_by structural a => a
end

instance : DecidableEq Json := Json.decEq

/-! ## Measures and normal form -/

namespace Json

mutual
/-- How many arrays and objects enclose the innermost value. -/
def depth : Json → Nat
  | .array items => depthItems items + 1
  | .object members => depthMembers members + 1
  | _ => 0
termination_by structural j => j

def depthItems : List Json → Nat
  | [] => 0
  | j :: rest => max j.depth (depthItems rest)
termination_by structural items => items

def depthMembers : List (String × Json) → Nat
  | [] => 0
  | m :: rest => max (depthMember m) (depthMembers rest)
termination_by structural members => members

def depthMember : String × Json → Nat
  | (_, j) => j.depth
termination_by structural m => m
end

mutual
/-- The members of every object in the document ascend strictly by name. -/
def Canonical : Json → Prop
  | .array items => CanonicalItems items
  | .object members => Members.Ascending members ∧ CanonicalMembers members
  | _ => True
termination_by structural j => j

def CanonicalItems : List Json → Prop
  | [] => True
  | j :: rest => j.Canonical ∧ CanonicalItems rest
termination_by structural items => items

def CanonicalMembers : List (String × Json) → Prop
  | [] => True
  | m :: rest => CanonicalMember m ∧ CanonicalMembers rest
termination_by structural members => members

def CanonicalMember : String × Json → Prop
  | (_, j) => j.Canonical
termination_by structural m => m
end

end Json

/-! ## Look-up after an update -/

namespace Members

theorem get?_insert (name other : String) (v : Json) (ms : Members) :
    get? other (insert name v ms) = if other = name then some v else get? other ms := by
  induction ms with
  | nil => simp [insert, get?, eq_comm]
  | cons m rest ih =>
    obtain ⟨n, w⟩ := m
    by_cases h₁ : name < n
    · simp only [insert, h₁, if_true, get?]
      by_cases ho : other = name
      · simp [ho]
      · simp [ho, Ne.symm ho]
    · by_cases h₂ : n = name
      · subst h₂
        simp only [insert, h₁, if_false, if_true, get?]
        by_cases ho : other = n
        · simp [ho]
        · simp [ho, Ne.symm ho]
      · simp only [insert, h₁, h₂, if_false, get?, ih]
        by_cases hn : n = other
        · subst hn; simp [h₂]
        · simp [hn]

theorem get?_erase_of_ne {name other : String} (h : other ≠ name) (ms : Members) :
    get? other (erase name ms) = get? other ms := by
  induction ms with
  | nil => rfl
  | cons m rest ih =>
    obtain ⟨n, w⟩ := m
    by_cases hn : n = name
    · subst hn; simp [erase, get?, Ne.symm h]
    · simp [erase, hn, get?, ih]

theorem get?_eq_none_of_not_mem {name : String} {ms : Members}
    (h : ∀ m ∈ ms, m.1 ≠ name) : get? name ms = none := by
  induction ms with
  | nil => rfl
  | cons m rest ih =>
    obtain ⟨n, w⟩ := m
    have hn : n ≠ name := h (n, w) (by simp)
    simp only [get?, hn, if_false]
    exact ih fun m hm => h m (List.mem_cons_of_mem _ hm)

theorem get?_erase {name : String} {ms : Members} (h : Ascending ms) :
    get? name (erase name ms) = none := by
  induction ms with
  | nil => rfl
  | cons m rest ih =>
    obtain ⟨n, w⟩ := m
    obtain ⟨hm, hr⟩ := List.pairwise_cons.mp h
    by_cases hn : n = name
    · subst hn
      simp only [erase, if_true]
      refine get?_eq_none_of_not_mem fun m hin he => ?_
      have := hm m hin
      rw [he] at this
      exact absurd this (String.lt_irrefl _)
    · simp [erase, hn, get?, ih hr]

/-! ## Ascending names -/

theorem mem_insert {name : String} {v : Json} {ms : Members} {m : String × Json}
    (h : m ∈ insert name v ms) : m = (name, v) ∨ m ∈ ms := by
  induction ms with
  | nil => simpa [insert] using h
  | cons a rest ih =>
    obtain ⟨n, w⟩ := a
    by_cases h₁ : name < n
    · simpa [insert, h₁] using h
    · by_cases h₂ : n = name
      · subst h₂
        simp only [insert, h₁, if_false, if_true, List.mem_cons] at h
        exact h.imp_right (List.mem_cons_of_mem _)
      · simp only [insert, h₁, h₂, if_false, List.mem_cons] at h
        rcases h with h | h
        · exact .inr (h ▸ List.mem_cons_self)
        · exact (ih h).imp_right (List.mem_cons_of_mem _)

theorem mem_of_mem_erase {name : String} {ms : Members} {m : String × Json}
    (h : m ∈ erase name ms) : m ∈ ms := by
  induction ms with
  | nil => simp [erase] at h
  | cons a rest ih =>
    obtain ⟨n, w⟩ := a
    by_cases hn : n = name
    · simp only [erase, hn, if_true] at h
      exact List.mem_cons_of_mem _ h
    · simp only [erase, hn, if_false, List.mem_cons] at h
      rcases h with h | h
      · exact h ▸ List.mem_cons_self
      · exact List.mem_cons_of_mem _ (ih h)

theorem ascending_insert {name : String} {v : Json} {ms : Members} (h : Ascending ms) :
    Ascending (insert name v ms) := by
  induction ms with
  | nil => simp [insert, Ascending]
  | cons a rest ih =>
    obtain ⟨n, w⟩ := a
    obtain ⟨hm, hr⟩ := List.pairwise_cons.mp h
    by_cases h₁ : name < n
    · simp only [insert, h₁, if_true]
      refine List.pairwise_cons.mpr ⟨fun m hin => ?_, h⟩
      rcases List.mem_cons.mp hin with rfl | hin
      · exact h₁
      · exact String.lt_trans h₁ (hm m hin)
    · by_cases h₂ : n = name
      · subst h₂
        simp only [insert, h₁, if_false, if_true]
        exact List.pairwise_cons.mpr ⟨hm, hr⟩
      · simp only [insert, h₁, h₂, if_false]
        refine List.pairwise_cons.mpr ⟨fun m hin => ?_, ih hr⟩
        rcases mem_insert hin with rfl | hin
        · rcases String.le_total name n with hle | hle
          · exact absurd (String.le_antisymm hle (String.not_lt.mp h₁)) (Ne.symm h₂)
          · by_cases hlt : n < name
            · exact hlt
            · exact absurd (String.le_antisymm hle (String.not_lt.mp hlt)) h₂
        · exact hm m hin

theorem ascending_erase {name : String} {ms : Members} (h : Ascending ms) :
    Ascending (erase name ms) := by
  induction ms with
  | nil => exact h
  | cons a rest ih =>
    obtain ⟨n, w⟩ := a
    obtain ⟨hm, hr⟩ := List.pairwise_cons.mp h
    by_cases hn : n = name
    · rw [erase, if_pos hn]
      exact hr
    · simp only [erase, hn, if_false]
      exact List.pairwise_cons.mpr ⟨fun m hin => hm m (mem_of_mem_erase hin), ih hr⟩

theorem get?_eq_none_of_lt {name n : String} {w : Json} {rest : Members} (hlt : name < n)
    (h : Ascending ((n, w) :: rest)) : get? name ((n, w) :: rest) = none := by
  refine get?_eq_none_of_not_mem fun m hin he => ?_
  have hle : name < m.1 := by
    rcases List.mem_cons.mp hin with rfl | hin
    · exact hlt
    · exact String.lt_trans hlt ((List.pairwise_cons.mp h).1 m hin)
  rw [he] at hle
  exact String.lt_irrefl _ hle

/-- **Ascending members with the same look-ups are equal.** -/
theorem eq_of_get? {ms ns : Members} (hm : Ascending ms) (hn : Ascending ns)
    (h : ∀ name, get? name ms = get? name ns) : ms = ns := by
  induction ms generalizing ns with
  | nil =>
    cases ns with
    | nil => rfl
    | cons b bs => have := h b.1; simp [get?] at this
  | cons a as ih =>
    obtain ⟨k, v⟩ := a
    cases ns with
    | nil => have := h k; simp [get?] at this
    | cons b bs =>
      obtain ⟨l, w⟩ := b
      have hkl : k = l := by
        by_cases hlt : k < l
        · have := h k
          rw [get?_eq_none_of_lt hlt hn] at this
          simp [get?] at this
        · by_cases hgt : l < k
          · have := h l
            rw [get?_eq_none_of_lt hgt hm] at this
            simp [get?] at this
          · exact String.le_antisymm (String.not_lt.mp hgt) (String.not_lt.mp hlt)
      subst hkl
      have hv : v = w := by simpa [get?] using h k
      subst hv
      congr 1
      refine ih (List.pairwise_cons.mp hm).2 (List.pairwise_cons.mp hn).2 fun name => ?_
      have hname := h name
      by_cases hk : k = name
      · subst hk
        rw [get?_eq_none_of_not_mem fun m hin he =>
            String.lt_irrefl _ (he ▸ (List.pairwise_cons.mp hm).1 m hin),
          get?_eq_none_of_not_mem fun m hin he =>
            String.lt_irrefl _ (he ▸ (List.pairwise_cons.mp hn).1 m hin)]
      · simpa [get?, hk] using hname

/-! ## Updates after updates -/

theorem insert_insert (name : String) (v w : Json) (ms : Members) :
    insert name w (insert name v ms) = insert name w ms := by
  induction ms with
  | nil => simp only [insert, if_neg (String.lt_irrefl name), if_true]
  | cons m rest ih =>
    obtain ⟨n, x⟩ := m
    by_cases hlt : name < n
    · simp only [insert, if_pos hlt, if_neg (String.lt_irrefl name), if_true]
    · by_cases hn : n = name
      · simp only [insert, if_neg hlt, if_pos hn, if_neg (String.lt_irrefl name), if_true]
      · simp only [insert, if_neg hlt, if_neg hn, ih]

theorem insert_of_get? {name : String} {v : Json} {ms : Members} (h : Ascending ms)
    (hv : get? name ms = some v) : insert name v ms = ms := by
  refine eq_of_get? (ascending_insert h) h fun other => ?_
  rw [get?_insert]
  split
  · rename_i he
    rw [he, hv]
  · rfl

theorem erase_of_get? {name : String} {ms : Members} (h : get? name ms = none) :
    erase name ms = ms := by
  induction ms with
  | nil => rfl
  | cons m rest ih =>
    obtain ⟨n, v⟩ := m
    by_cases hn : n = name
    · simp [get?, hn] at h
    · rw [erase, if_neg hn, ih (by simpa [get?, hn] using h)]

theorem erase_insert {name : String} {ms : Members} (h : Ascending ms) (hv : get? name ms = none)
    (v : Json) : erase name (insert name v ms) = ms := by
  refine eq_of_get? (ascending_erase (ascending_insert h)) h fun other => ?_
  by_cases he : other = name
  · rw [he, get?_erase (ascending_insert h), hv]
  · rw [get?_erase_of_ne he, get?_insert, if_neg he]

theorem insert_erase {name : String} {v : Json} {ms : Members} (h : Ascending ms)
    (hv : get? name ms = some v) : insert name v (erase name ms) = ms := by
  refine eq_of_get? (ascending_insert (ascending_erase h)) h fun other => ?_
  by_cases he : other = name
  · rw [he, get?_insert, if_pos rfl, hv]
  · rw [get?_insert, if_neg he, get?_erase_of_ne he]

theorem map_fst_insert {name : String} {v : Json} {ms : Members} (h : Ascending ms)
    (hv : get? name ms = some v) (w : Json) :
    (insert name w ms).map Prod.fst = ms.map Prod.fst := by
  induction ms with
  | nil => cases hv
  | cons m rest ih =>
    obtain ⟨n, x⟩ := m
    by_cases hlt : name < n
    · rw [get?_eq_none_of_lt hlt h] at hv
      cases hv
    · by_cases hn : n = name
      · subst hn
        simp only [insert, if_neg hlt, if_true, List.map_cons]
      · have hrest := ih (List.pairwise_cons.mp h).2 (by simpa [get?, hn] using hv)
        simp [insert, hlt, hn, hrest]

end Members

end DataRepository
