import DataRepository.Settings
import Mathlib.Data.List.Basic

/-! # Values that variables set

A variable names a path, and its value is put there, over what a file or another variable
has put there before. What names lead to is then the value, until another variable leads to
a table or a list on the way, to the same place, or below it. -/
namespace DataRepository.Settings

/-! ## Members -/

@[simp] theorem member?_putMember (name : String) (v : Value) (members : List (String × Value)) :
    member? name (putMember name v members) = some v := by
  induction members with
  | nil => simp [putMember, member?]
  | cons m rest ih =>
    by_cases h : m.1 = name
    · simp [putMember, member?, h]
    · rw [putMember, if_neg h]
      simpa [member?, h] using ih

theorem member?_putMember_of_ne {name other : String} (h : other ≠ name) (v : Value)
    (members : List (String × Value)) :
    member? name (putMember other v members) = member? name members := by
  induction members with
  | nil => simp [putMember, member?, h]
  | cons m rest ih =>
    by_cases hm : m.1 = other
    · simp [putMember, member?, hm, h]
    · rw [putMember, if_neg hm]
      by_cases hname : m.1 = name
      · simp [member?, hname]
      · simpa [member?, hname] using ih

/-! ## Names that lead to a value -/

/-- The value that names lead to, from one table to the next. -/
def follow? : List String → Value → Option Value
  | [], v => some v
  | name :: names, v => member? name (membersOf v) >>= follow? names

/-- The steps of a path, from the root table on. -/
def Path.fromRoot (p : Path) : List Step := .member p.root :: p.steps

/-- Steps that part from the names: both lead through the same tables, and then to two members of
one. -/
def Parts : List Step → List String → Prop
  | .member a :: steps, name :: names => lowerName a ≠ name ∨ Parts steps names
  | _, _ => False

instance decidableParts : (steps : List Step) → (names : List String) → Decidable (Parts steps names)
  | .member _ :: steps, _ :: names =>
    have := decidableParts steps names
    inferInstanceAs (Decidable (_ ∨ _))
  | [], _ => isFalse id
  | .position _ :: _, _ => isFalse id
  | .member _ :: _, [] => isFalse id

/-- Steps that part from names start with a member, at the latest where it is another one. -/
theorem Parts.exists_member {steps : List Step} {names : List String} (h : Parts steps names) :
    ∃ a more name rest, steps = .member a :: more ∧ names = name :: rest ∧
      (lowerName a ≠ name ∨ Parts more rest) := by
  cases steps with
  | nil => cases h
  | cons step more =>
    cases step with
    | position index => cases h
    | member a =>
      cases names with
      | nil => cases h
      | cons name rest => exact ⟨a, more, name, rest, rfl, rfl, h⟩

/-- A value put at other steps leaves what the names lead to. -/
theorem follow?_setBelow_of_parts {steps : List Step} {names : List String}
    (h : Parts steps names) (v : Value) (current : Option Value) :
    follow? names (setBelow v steps current) = follow? names (current.getD .nothing) := by
  induction steps generalizing names current with
  | nil => cases h
  | cons step steps ih =>
    obtain ⟨a, more, name, names, hsteps, rfl, hother⟩ := h.exists_member
    obtain ⟨rfl, rfl⟩ := List.cons.inj hsteps
    let members := membersOf (current.getD .nothing)
    let below := setBelow v steps (member? (lowerName a) members)
    change member? name (putMember (lowerName a) below members) >>= follow? names =
      member? name members >>= follow? names
    by_cases ha : lowerName a = name
    · have hparts : Parts steps names := hother.resolve_left (not_not_intro ha)
      rw [ha, member?_putMember, Option.bind_eq_bind, Option.bind_some, ih hparts, ha]
      cases member? name members with
      | some u => rfl
      | none =>
        -- Below nothing there are no members, and the steps that part have names left to take.
        obtain ⟨a', more, name', rest, -, rfl, -⟩ := hparts.exists_member
        rfl
    · rw [member?_putMember_of_ne ha]

/-- Names lead to the value that was put where they lead, if it is no table. -/
theorem follow?_setBelow {v : Value} (hv : ∀ current, merge current v = v) {names : List String}
    (hnames : ∀ name ∈ names, lowerName name = name) (current : Option Value) :
    follow? names (setBelow v (names.map .member) current) = some v := by
  induction names generalizing current with
  | nil => exact congrArg some (hv current)
  | cons name names ih =>
    obtain ⟨hname, hmore⟩ := List.forall_mem_cons.mp hnames
    let members := membersOf (current.getD .nothing)
    change member? name (putMember (lowerName name)
      (setBelow v (names.map .member) (member? (lowerName name) members)) members) >>=
        follow? names = some v
    rw [hname, member?_putMember, Option.bind_eq_bind, Option.bind_some, ih hmore]

/-! ## Variables -/

/-- The path that a variable names, if it names a setting. -/
def variablePath? (name : String) : Option Path :=
  let cs := (lowerName name).toList
  if variableStart <+: cs then
    some (Path.ofName (String.ofList (dotted (cs.drop variableStart.length))))
  else none

def setVariable (members : List (String × Value)) (v : String × String) : List (String × Value) :=
  match variablePath? v.1 with
  | some p => setAt p (Value.ofVariable v.2) members
  | none => members

/-- Variables are set one after the other. -/
theorem apply_ofVariables (members : List (String × Value)) (vars : List (String × String)) :
    apply members (ofVariables vars) = vars.foldl setVariable members := by
  rw [apply, ofVariables, List.foldl_filterMap]
  congr 1
  funext members v
  by_cases hname : variableStart <+: (lowerName v.1).toList
  · simp only [setVariable, variablePath?, if_pos hname]
  · simp only [setVariable, variablePath?, if_neg hname]

theorem merge_ofVariable (current : Option Value) (s : String) :
    merge current (Value.ofVariable s) = Value.ofVariable s := by
  unfold Value.ofVariable
  split
  · rfl
  · split
    · rfl
    · split
      · rfl
      · split <;> rfl

/-- A variable parts from names if it names no setting, or one at steps that part from them. -/
def VariableParts (name : String) (names : List String) : Prop :=
  ∀ p ∈ variablePath? name, Parts p.fromRoot names

instance (name : String) (names : List String) : Decidable (VariableParts name names) :=
  match h : variablePath? name with
  | some p => decidable_of_iff (Parts p.fromRoot names) (by simp [VariableParts, h])
  | none => isTrue (by simp [VariableParts, h])

theorem follow?_setVariable_of_parts {v : String × String} {names : List String}
    (h : VariableParts v.1 names) (members : List (String × Value)) :
    follow? names (.table (setVariable members v)) = follow? names (.table members) := by
  unfold setVariable
  split
  · rename_i p hp
    exact follow?_setBelow_of_parts (h p hp) _ (some (.table members))
  · rfl

theorem follow?_foldl_setVariable {vars : List (String × String)} {names : List String}
    (h : ∀ v ∈ vars, VariableParts v.1 names) (members : List (String × Value)) :
    follow? names (.table (vars.foldl setVariable members)) = follow? names (.table members) := by
  induction vars generalizing members with
  | nil => rfl
  | cons v vars ih =>
    obtain ⟨hv, hvars⟩ := List.forall_mem_cons.mp h
    rw [List.foldl_cons, ih hvars, follow?_setVariable_of_parts hv]

/-- **What names lead to is the value of the last variable that does not part from them**, if the path
that it names is these names. -/
theorem follow?_apply_ofVariables {p : Path} {names : List String} {name text : String}
    (hp : p.fromRoot = names.map .member) (hnames : ∀ name ∈ names, lowerName name = name)
    (hname : variablePath? name = some p) (before : List (String × String))
    {after : List (String × String)} (hafter : ∀ v ∈ after, VariableParts v.1 names)
    (members : List (String × Value)) :
    follow? names (.table (apply members (ofVariables (before ++ (name, text) :: after)))) =
      some (Value.ofVariable text) := by
  rw [apply_ofVariables, List.foldl_append, List.foldl_cons, follow?_foldl_setVariable hafter,
    setVariable, hname]
  have hset := follow?_setBelow (merge_ofVariable · text) hnames
    (some (.table (before.foldl setVariable members)))
  rw [← hp] at hset
  exact hset

end DataRepository.Settings
