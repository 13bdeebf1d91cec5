import DataRepository.Proofs.Patch.Agreement
import DataRepository.Proofs.Patch.InPlace
import DataRepository.Store

/-! # Patches one after the other

The items of one patch are carried out like those of two patches that follow one another
(`applyItems_append`): what is refused is refused where the items before it have come to,
and nothing after it counts. The store carries out a patch on a copy, so of two patches in
one nothing is stored unless both would be. -/
namespace DataRepository

namespace Patch

variable {d d' : Json} {xs ys : List Json} {why : Refusal}

/-! ## Outcomes -/

/-- The outcome of going on with the document, if nothing was refused. -/
def Outcome.andThen (o : Outcome) (next : Json → Outcome) : Outcome :=
  match o.refusal with
  | none => next o.document
  | some _ => o

/-- The document that an outcome stands for, if nothing was refused. -/
def Outcome.toExcept (o : Outcome) : Except Refusal Json :=
  match o.refusal with
  | none => .ok o.document
  | some why => .error why

theorem patched_eq (d p : Json) : patched d p = (apply d p).toExcept := by
  unfold patched
  split <;> rename_i h <;> rw [h] <;> rfl

/-! ## Lists of items -/

/-- **A list of items and the one after it.** -/
theorem applyItems_append (d : Json) (xs ys : List Json) :
    applyItems d (xs ++ ys) = (applyItems d xs).andThen fun d' => applyItems d' ys := by
  induction xs generalizing d with
  | nil => rfl
  | cons i rest ih =>
    simp only [List.cons_append, applyItems]
    cases Item.ofJson i >>= fun item => item.apply d with
    | error why => rfl
    | ok d' => exact ih d'

theorem patched_append (d : Json) (xs ys : List Json) :
    patched d (.array (xs ++ ys)) = patched d (.array xs) >>= fun d' => patched d' (.array ys) := by
  simp only [patched_eq, apply, applyItems_append]
  obtain ⟨d', refusal⟩ := applyItems d xs
  cases refusal <;> rfl

/-- What is refused is refused at one item, where the items before it have come to. -/
theorem exists_of_refused (h : applyItems d xs = ⟨d', some why⟩) :
    ∃ before i after, xs = before ++ i :: after ∧ applyItems d before = ⟨d', none⟩ ∧
      applyItems d' [i] = ⟨d', some why⟩ := by
  induction xs generalizing d with
  | nil => cases h
  | cons i rest ih =>
    cases hitem : Item.ofJson i >>= fun item => item.apply d with
    | error refusal =>
      simp only [applyItems, hitem] at h
      cases h
      exact ⟨[], i, rest, rfl, rfl, by simp only [applyItems, hitem]⟩
    | ok d₁ =>
      simp only [applyItems, hitem] at h
      obtain ⟨before, next, after, rfl, hbefore, hnext⟩ := ih h
      exact ⟨i :: before, next, after, rfl, by simpa only [applyItems, hitem] using hbefore, hnext⟩

/-- Two lists of items in one patch of a document. -/
structure InSequence (xs ys : List Json) (d : Json) : Prop where
  /-- If the first list is refused, the second does not count. -/
  refused : ∀ d' why, apply d (.array xs) = ⟨d', some why⟩ →
    apply d (.array (xs ++ ys)) = ⟨d', some why⟩
  /-- If not, the second goes on where the first has come to. -/
  passed : ∀ d', apply d (.array xs) = ⟨d', none⟩ →
    apply d (.array (xs ++ ys)) = apply d' (.array ys)
  /-- A refused list has done the items before the refused one, which has done nothing. -/
  upTo : ∀ d' why, apply d (.array xs) = ⟨d', some why⟩ →
    ∃ before i after, xs = before ++ i :: after ∧ apply d (.array before) = ⟨d', none⟩ ∧
      carryOut [i] d' = ⟨d', some why⟩
  /-- Carried out on the document itself the patch leaves the same. -/
  inPlace : carryOut (xs ++ ys) d = apply d (.array (xs ++ ys))

theorem inSequence (hitems : (Json.array (xs ++ ys)).Canonical) (hd : d.Canonical) :
    InSequence xs ys d where
  refused d' why h := by
    have h : applyItems d xs = ⟨d', some why⟩ := h
    rw [apply, applyItems_append, h, Outcome.andThen]
  passed d' h := by
    have h : applyItems d xs = ⟨d', none⟩ := h
    rw [apply, applyItems_append, h, Outcome.andThen, apply]
  upTo d' why h := by
    obtain ⟨before, i, after, rfl, hbefore, hitem⟩ := exists_of_refused h
    have hall := Json.canonicalItems_iff.mp hitems
    have hd' : d'.Canonical :=
      (applyItems_grown (fun j hj => hall j (by simp [hj])) hd hbefore).canonical
    refine ⟨before, i, after, rfl, hbefore, ?_⟩
    rw [carryOut_eq (fun j hj => hall j (by simp [List.mem_singleton.mp hj])) hd', hitem]
  inPlace := carryOut_eq (Json.canonicalItems_iff.mp hitems) hd

end Patch

/-! ## The store -/

namespace Store

theorem insert_insert (s : Store) (key : String) (a b : Json) :
    (s.insert key a).insert key b = s.insert key b := by
  simp only [insert, Members.insert_insert]

/-- Two lists of items in one patch of a stored document. -/
structure PatchesInSequence (s : Store) (key : String) (xs ys : List Json) : Prop where
  /-- The patch succeeds if both lists would, one after the other. -/
  succeeds : ∀ found, (s.patch key (.array (xs ++ ys))).1 = .ok found ↔
    (s.patch key (.array xs)).1 = .ok found ∧
      ((s.patch key (.array xs)).2.patch key (.array ys)).1 = .ok found
  /-- Then the store is what the two would have left. -/
  stored : (s.patch key (.array (xs ++ ys))).1 = .ok true →
    (s.patch key (.array (xs ++ ys))).2 = ((s.patch key (.array xs)).2.patch key (.array ys)).2
  /-- Otherwise it is what it was. -/
  unchanged : (s.patch key (.array (xs ++ ys))).1 ≠ .ok true →
    (s.patch key (.array (xs ++ ys))).2 = s

theorem patchesInSequence (s : Store) (key : String) (xs ys : List Json) :
    s.PatchesInSequence key xs ys := by
  cases hget : s.get? key with
  | none =>
    have hnone : ∀ body, s.patch key body = (.ok false, s) := fun body => by simp [patch, hget]
    constructor <;> simp [hnone]
  | some doc =>
    -- The store only sees what the copy comes to: after the first list, and after both.
    have hwhole := Patch.patched_append doc xs ys
    cases hfirst : Patch.patched doc (.array xs) with
    | error why =>
      rw [hfirst] at hwhole
      constructor <;> simp [patch, hget, hfirst, hwhole, bind, Except.bind]
    | ok middle =>
      cases hsecond : Patch.patched middle (.array ys) with
      | error why =>
        have hwhole : Patch.patched doc (.array (xs ++ ys)) = .error why := by
          rw [hwhole, hfirst]
          exact hsecond
        constructor <;> simp [patch, hget, hfirst, hsecond, hwhole, get?_insert_self]
      | ok last =>
        have hwhole : Patch.patched doc (.array (xs ++ ys)) = .ok last := by
          rw [hwhole, hfirst]
          exact hsecond
        constructor <;>
          simp [patch, hget, hfirst, hsecond, hwhole, get?_insert_self, insert_insert]

end Store

namespace Patch

/-- **One patch is the two patches it is put together of**: applied to a document, carried out on the
document itself, and at the store. -/
theorem applied_in_sequence {d : Json} {xs ys : List Json} (hd : d.Canonical)
    (hitems : (Json.array (xs ++ ys)).Canonical) (s : Store) (key : String) :
    InSequence xs ys d ∧ s.PatchesInSequence key xs ys :=
  ⟨inSequence hitems hd, s.patchesInSequence key xs ys⟩

/-- The second item is refused: the first stays carried out on the document, and the store keeps what it
had. -/
theorem applied_in_sequence_refused :
    let d : Json := .object [("b", .bool true)]
    let d' : Json := .object [("a", .string "x"), ("b", .bool true)]
    let xs : List Json := [adding "/a" (.string "x"), removing "/c"]
    let ys : List Json := [removing "/b"]
    let s : Store := Store.empty.insert "k" d
    d.Canonical ∧ (Json.array (xs ++ ys)).Canonical ∧
      apply d (.array xs) = ⟨d', some (.pathNotFound "/c")⟩ ∧
      apply d (.array (xs ++ ys)) = ⟨d', some (.pathNotFound "/c")⟩ ∧
      carryOut (xs ++ ys) d = ⟨d', some (.pathNotFound "/c")⟩ ∧
      (s.patch "k" (.array (xs ++ ys))).2 = s := by
  intro d d' xs ys s
  have hd : d.Canonical := ⟨by decide, trivial, trivial⟩
  have hitems : (Json.array (xs ++ ys)).Canonical :=
    ⟨⟨by decide, trivial, trivial, trivial, trivial⟩, ⟨by decide, trivial, trivial, trivial⟩,
      ⟨by decide, trivial, trivial, trivial⟩, trivial⟩
  have hfirst : apply d (.array xs) = ⟨d', some (.pathNotFound "/c")⟩ := rfl
  obtain ⟨hsequence, hstore⟩ := applied_in_sequence hd hitems s "k"
  have hwhole := hsequence.refused _ _ hfirst
  refine ⟨hd, hitems, hfirst, hwhole, hsequence.inPlace.trans hwhole, hstore.unchanged fun h => ?_⟩
  cases h

end Patch

end DataRepository
