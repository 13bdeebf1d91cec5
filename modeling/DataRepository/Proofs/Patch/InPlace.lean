import DataRepository.Proofs.Patch.Items
import DataRepository.Proofs.Patch.Updates

/-! # Patches carried out in place

`Item.apply` makes a new document or none. A document that is held in place is written to
as an item goes along, and what has been written by the time the item is refused stays
written: `remove` takes a member out and then asks whether there was one. `carryOut` is
the patch as it is carried out that way, and `carryOut_eq` says that it comes to the same,
the document that a refusal leaves included: no refused item has changed anything. -/
namespace DataRepository.Patch

variable {ts : List String} {a d : Json}

/-! ## Writing -/

/-- What is done to a value in place: whether it was done, and the value as it is left. -/
abbrev Writing := Json → Bool × Json

def writing (v : Json) : Writing := fun _ => (true, v)

/-- Puts the value into a container under the last name of a path. -/
def puttingIn (v : Json) (last : String) : Writing
  | .object members => (true, .object (Members.insert last v members))
  | .array items =>
    if last = "-" then (true, .array (items ++ [v]))
    else match Text.unsigned? last.toList with
      | none => (false, .array items)
      | some i =>
        if items.length < i then (false, .array items)
        else (true, .array (items.take i ++ v :: items.drop i))
  | d => (false, d)

/-- Takes the value under the last name of a path out of a container, and says whether there was
one. -/
def takingOut (last : String) : Writing
  | .object members =>
    (Option.isSome (Members.get? last members), .object (Members.erase last members))
  | .array items =>
    match Text.unsigned? last.toList with
    | none => (false, .array items)
    | some i =>
      if i < items.length then (true, .array (items.eraseIdx i)) else (false, .array items)
  | d => (false, d)

/-- Writes at the place that the names lead to, and leaves there what is left, done or not. -/
def writeAlong (f : Writing) : List String → Json → Bool × Json
  | [], d => f d
  | t :: ts, d =>
    match step? t d with
    | none => (false, d)
    | some s =>
      match s.value? d with
      | none => (false, d)
      | some v => ((writeAlong f ts v).1, s.put (writeAlong f ts v).2 d)

def writeAt (f : Writing) (p : String) (d : Json) : Bool × Json :=
  match tokens? p with
  | none => (false, d)
  | some ts => writeAlong f ts d

/-- The outcome of an item of this path: what was not done is refused, and the document is what it has
become. -/
def settled (path : String) (left : Bool × Json) : Outcome :=
  ⟨left.2, if left.1 then none else some (.pathNotFound path)⟩

/-- Writes in the container that holds the place of a path. -/
def writeInParent (f : String → Writing) (path : String) (d : Json) : Outcome :=
  match splitLast? path with
  | none => ⟨d, some (.invalidItem ("invalid JSON pointer: " ++ path))⟩
  | some (parent, last) => settled path (writeAt (f last) parent d)

def Item.carryOut (item : Item) (d : Json) : Outcome :=
  match item.change with
  | .replace v => settled item.path (writeAt (writing v) item.path d)
  | .add v => writeInParent (puttingIn v) item.path d
  | .remove => writeInParent takingOut item.path d

/-- Carries out the items in order on one document; the first that is refused ends the patch. -/
def carryOut : List Json → Json → Outcome
  | [], d => ⟨d, none⟩
  | i :: rest, d =>
    match Item.ofJson i with
    | .error why => ⟨d, some why⟩
    | .ok item =>
      match item.carryOut d with
      | ⟨d', none⟩ => carryOut rest d'
      | refused => refused

/-! ## Writing and changing -/

/-- What is left of a value where a change was tried. -/
def tried (a : Json) : Option Json → Bool × Json
  | some b => (true, b)
  | none => (false, a)

theorem puttingIn_eq (v : Json) (last : String) (a : Json) :
    puttingIn v last a = tried a (addIn last v a) := by
  cases a with
  | object members => rfl
  | array items =>
    by_cases hend : last = "-"
    · simp [puttingIn, addIn, hend, tried]
    · cases hnumeral : Text.unsigned? last.toList with
      | none => simp [puttingIn, addIn, hend, hnumeral, tried]
      | some i =>
        by_cases hi : i ≤ items.length
        · simp [puttingIn, addIn, insertAt?, hend, hnumeral, hi, Nat.not_lt.mpr hi, tried]
        · simp [puttingIn, addIn, insertAt?, hend, hnumeral, hi, Nat.not_le.mp hi, tried]
  | _ => rfl

/-- To take out a member that is not there leaves the members as they are. -/
theorem takingOut_eq (ha : a.Canonical) (last : String) :
    takingOut last a = tried a (removeIn last a) := by
  cases a with
  | object members =>
    cases hget : Members.get? last members with
    | some w => simp [takingOut, removeIn, hget, tried]
    | none => simp [takingOut, removeIn, hget, tried, Members.erase_of_get? hget]
  | array items =>
    cases hnumeral : Text.unsigned? last.toList with
    | none => simp [takingOut, removeIn, hnumeral, tried]
    | some i =>
      by_cases hi : i < items.length
      · simp [takingOut, removeIn, removeAt?, hnumeral, hi, tried]
      · simp [takingOut, removeIn, removeAt?, hnumeral, hi, tried]
  | _ => rfl

/-- **What leaves its place as it is where it is not done leaves the whole document as it is.** -/
theorem writeAlong_eq {f : Writing} {change : Json → Option Json} (hd : d.Canonical)
    (hf : ∀ a, a.Canonical → f a = tried a (change a)) :
    writeAlong f ts d = tried d (update? change ts d) := by
  induction ts generalizing d with
  | nil => exact hf d hd
  | cons t ts ih =>
    rw [update?_cons, writeAlong]
    cases hs : step? t d with
    | none => rfl
    | some s =>
      cases hv : s.value? d with
      | none => simp [hv, tried]
      | some v =>
        have hinner := ih (canonical_of_value? hd hv)
        cases hw : update? change ts v with
        | none =>
          -- What is left one step down is put back, although nothing was done there.
          simp [hv, hw, hinner, tried, put_of_value? hd hv]
        | some w => simp [hv, hw, hinner, tried]

theorem writeAt_eq {f : Writing} {change : Json → Option Json} (hd : d.Canonical)
    (hf : ∀ a, a.Canonical → f a = tried a (change a)) (p : String) :
    writeAt f p d = tried d (tokens? p >>= fun ts => update? change ts d) := by
  cases htokens : tokens? p with
  | none => simp [writeAt, htokens, tried]
  | some ts => simp [writeAt, htokens, writeAlong_eq hd hf]

/-! ## Items -/

/-- The outcome of what is made of a document, or of nothing being made of it. -/
def outcomeOf (d : Json) : Except Refusal Json → Outcome
  | .ok d' => ⟨d', none⟩
  | .error why => ⟨d, some why⟩

theorem writeInParent_eq {f : String → Writing} {change : String → Json → Option Json}
    (hd : d.Canonical) (hf : ∀ last a, a.Canonical → f last a = tried a (change last a))
    (path : String) : writeInParent f path d = outcomeOf d (inParent change path d) := by
  unfold writeInParent inParent
  cases splitLast? path with
  | none => rfl
  | some parts =>
    obtain ⟨parent, last⟩ := parts
    simp only [writeAt_eq hd (hf last) parent]
    cases tokens? parent >>= fun ts => update? (change last) ts d <;> rfl

/-- **An item carried out on a document makes of it what it is to make, and nothing if it is
refused.** -/
theorem Item.carryOut_eq (item : Item) (hd : d.Canonical) :
    item.carryOut d = outcomeOf d (item.apply d) := by
  obtain ⟨change, path⟩ := item
  cases change with
  | replace v =>
    have hf : ∀ a, a.Canonical → writing v a = tried a (some v) := fun _ _ => rfl
    simp only [Item.carryOut, Item.apply, writeAt_eq hd hf path]
    cases tokens? path >>= fun ts => update? (fun _ => some v) ts d <;> rfl
  | add v => exact writeInParent_eq hd (fun last a _ => puttingIn_eq v last a) path
  | remove => exact writeInParent_eq hd (fun last a ha => takingOut_eq ha last) path

/-- **A patch carried out in place comes to what it is to come to**, refused or not. -/
theorem carryOut_eq {items : List Json} (hitems : ∀ i ∈ items, i.Canonical) (hd : d.Canonical) :
    carryOut items d = applyItems d items := by
  induction items generalizing d with
  | nil => rfl
  | cons i rest ih =>
    obtain ⟨hi, hrest⟩ := List.forall_mem_cons.mp hitems
    cases hread : Item.ofJson i with
    | error why => simp [carryOut, applyItems, hread, bind, Except.bind]
    | ok item =>
      cases happly : item.apply d with
      | error why =>
        simp [carryOut, applyItems, hread, item.carryOut_eq hd, outcomeOf, happly, bind, Except.bind]
      | ok d' =>
        have hd' := (apply_grown (within_of_ofJson hi hread) hd happly).canonical
        simp [carryOut, applyItems, hread, item.carryOut_eq hd, outcomeOf, happly, bind, Except.bind,
          ih hrest hd']

end DataRepository.Patch
