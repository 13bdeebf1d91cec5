import DataRepository.Json.Record
import DataRepository.Patch.Pointer

/-!
# Items of a JSON patch

One change of a document: add, replace or remove the value at a place.  A `null` value counts as no
value, so an item cannot set a member to `null`.
-/
namespace DataRepository.Patch

/-- Why a patch is refused. -/
inductive Refusal where
  | invalidBody
  | invalidItem (detail : String)
  | unsupportedOp (op : String)
  | pathNotFound (path : String)
deriving DecidableEq

def Refusal.text : Refusal → String
  | .invalidBody => "patch body must be a JSON object or an array of patch items"
  | .invalidItem detail => "invalid patch item: " ++ detail
  | .unsupportedOp op => "unsupported patch operation: " ++ op
  | .pathNotFound path => "patch path does not exist: " ++ path

/-- What an item does at its place. -/
inductive Change where
  | add (value : Json)
  | replace (value : Json)
  | remove
deriving DecidableEq

/-- One change of a document. -/
structure Item where
  change : Change
  path : String
deriving DecidableEq

/-! ## Reading -/

structure Draft where
  op : Option String := none
  path : Option String := none
  value : Option (Option Json) := none

def record : Json.Record Draft (String × String × Option Json) where
  title := "struct PatchItem"
  members := [
    .of "op" .text (·.op) (fun v d => { d with op := some v }) false,
    .of "path" .text (·.path) (fun v d => { d with path := some v }) false,
    .of "value" (.optional .document) (·.value) (fun v d => { d with value := some v }) true]
  empty := {}
  finish d := do
    let op ← Json.required "op" d.op
    let path ← Json.required "path" d.path
    return (op, path, d.value.join)

def Item.ofJson (j : Json) : Except Refusal Item :=
  match record.fromJson j with
  | .error why => .error (.invalidItem why.text)
  | .ok (op, path, value) =>
    if op = "replace" then
      match value with
      | some v => .ok ⟨.replace v, path⟩
      | none => .error (.invalidItem "replace without value")
    else if op = "add" then
      match value with
      | some v => .ok ⟨.add v, path⟩
      | none => .error (.invalidItem "add without value")
    else if op = "remove" then .ok ⟨.remove, path⟩
    else .error (.unsupportedOp op)

/-! ## Applying -/

/-- The list with the value at this index and the values from there on moved up. -/
def insertAt? (i : Nat) (value : Json) (items : List Json) : Option (List Json) :=
  if i ≤ items.length then some (items.take i ++ value :: items.drop i) else none

def removeAt? (i : Nat) (items : List Json) : Option (List Json) :=
  if i < items.length then some (items.eraseIdx i) else none

/-- Adds the value to an object as this member, or to an array at this index; `-` is the end. -/
def addIn (token : String) (value : Json) : Json → Option Json
  | .object members => some (.object (Members.insert token value members))
  | .array items =>
    if token = "-" then some (.array (items ++ [value]))
    else do
      let i ← Text.unsigned? token.toList
      return .array (← insertAt? i value items)
  | _ => none

/-- Removes this member of an object, or the item at this index of an array. -/
def removeIn (token : String) : Json → Option Json
  | .object members =>
    if (Members.get? token members).isSome then some (.object (Members.erase token members))
    else none
  | .array items => do
    let i ← Text.unsigned? token.toList
    return .array (← removeAt? i items)
  | _ => none

theorem cases_of_addIn {token : String} {value j j' : Json} (h : addIn token value j = some j') :
    (∃ members, j = .object members ∧ j' = .object (Members.insert token value members)) ∨
      ∃ items i, j = .array items ∧ i ≤ items.length ∧
        (if token = "-" then i = items.length else Text.unsigned? token.toList = some i) ∧
        j' = .array (items.take i ++ value :: items.drop i) := by
  cases j with
  | object members => exact .inl ⟨members, rfl, (Option.some.inj h).symm⟩
  | array items =>
    by_cases hend : token = "-"
    · obtain rfl : Json.array (items ++ [value]) = j' := by simpa [addIn, hend] using h
      exact .inr ⟨items, items.length, rfl, Nat.le_refl _, by rw [if_pos hend], by simp⟩
    · simp only [addIn, if_neg hend, insertAt?, Option.bind_eq_bind, Option.bind_eq_some_iff,
        Option.ite_none_right_eq_some, Option.pure_def, Option.some.injEq] at h
      obtain ⟨i, hnumeral, _, ⟨hi, rfl⟩, rfl⟩ := h
      exact .inr ⟨items, i, rfl, hi, by rw [if_neg hend, hnumeral], rfl⟩
  | _ => cases h

theorem cases_of_removeIn {token : String} {j j' : Json} (h : removeIn token j = some j') :
    (∃ members w, j = .object members ∧ Members.get? token members = some w ∧
        j' = .object (Members.erase token members)) ∨
      ∃ items i, j = .array items ∧ Text.unsigned? token.toList = some i ∧ i < items.length ∧
        j' = .array (items.eraseIdx i) := by
  cases j with
  | object members =>
    simp only [removeIn, Option.ite_none_right_eq_some, Option.some.injEq] at h
    obtain ⟨hsome, rfl⟩ := h
    obtain ⟨w, hw⟩ := Option.isSome_iff_exists.mp hsome
    exact .inl ⟨members, w, rfl, hw, rfl⟩
  | array items =>
    simp only [removeIn, removeAt?, Option.bind_eq_bind, Option.bind_eq_some_iff,
      Option.ite_none_right_eq_some, Option.pure_def, Option.some.injEq] at h
    obtain ⟨i, hnumeral, _, ⟨hi, rfl⟩, rfl⟩ := h
    exact .inr ⟨items, i, rfl, hnumeral, hi, rfl⟩
  | _ => cases h

/-- Changes the document that holds the place of a pointer, given the last name. -/
def inParent (change : String → Json → Option Json) (path : String) (j : Json) :
    Except Refusal Json :=
  match splitLast? path with
  | none => .error (.invalidItem ("invalid JSON pointer: " ++ path))
  | some (parent, last) =>
    match tokens? parent >>= fun ts => update? (change last) ts j with
    | some j => .ok j
    | none => .error (.pathNotFound path)

def Item.apply (item : Item) (j : Json) : Except Refusal Json :=
  match item.change with
  | .replace v =>
    match tokens? item.path >>= fun ts => update? (fun _ => some v) ts j with
    | some j => .ok j
    | none => .error (.pathNotFound item.path)
  | .add v => inParent (fun last => addIn last v) item.path j
  | .remove => inParent removeIn item.path j

end DataRepository.Patch
