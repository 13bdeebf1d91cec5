import DataRepository.Patch

/-!
# The document store

Documents under the paths of their resources.  Entries are held in ascending order of their keys, so
that two stores with the same look-ups are equal.
-/
namespace DataRepository

structure Store where
  entries : List (String × Json)
  ascending : Members.Ascending entries

/-- Whether a document was put where none was. -/
inductive PutOutcome where
  | created
  | replaced
deriving DecidableEq

namespace Store

def empty : Store := ⟨[], List.Pairwise.nil⟩

def get? (s : Store) (key : String) : Option Json := Members.get? key s.entries

def insert (s : Store) (key : String) (doc : Json) : Store :=
  ⟨Members.insert key doc s.entries, Members.ascending_insert s.ascending⟩

def erase (s : Store) (key : String) : Store :=
  ⟨Members.erase key s.entries, Members.ascending_erase s.ascending⟩

/-- Puts a document under the key, in place of the one that may be there. -/
def put (s : Store) (key : String) (doc : Json) : PutOutcome × Store :=
  (if (s.get? key).isSome then .replaced else .created, s.insert key doc)

/-- Patches the document under the key: whether there is one, or why the patch is refused.  A refused
patch leaves the document as it was. -/
def patch (s : Store) (key : String) (body : Json) : Except Patch.Refusal Bool × Store :=
  match s.get? key with
  | none => (.ok false, s)
  | some doc =>
    match Patch.patched doc body with
    | .ok doc => (.ok true, s.insert key doc)
    | .error why => (.error why, s)

/-- Removes the document under the key; whether there was one. -/
def remove (s : Store) (key : String) : Bool × Store :=
  ((s.get? key).isSome, s.erase key)

/-! ## Look-up after an update -/

theorem get?_insert_self (s : Store) (key : String) (doc : Json) :
    (s.insert key doc).get? key = some doc := by
  simp [get?, insert, Members.get?_insert]

theorem get?_insert_of_ne (s : Store) {key other : String} (doc : Json) (h : other ≠ key) :
    (s.insert key doc).get? other = s.get? other := by
  simp [get?, insert, Members.get?_insert, h]

theorem get?_erase_self (s : Store) (key : String) : (s.erase key).get? key = none :=
  Members.get?_erase s.ascending

theorem get?_erase_of_ne (s : Store) {key other : String} (h : other ≠ key) :
    (s.erase key).get? other = s.get? other :=
  Members.get?_erase_of_ne h s.entries

theorem get?_put_of_ne (s : Store) {key other : String} (doc : Json) (h : other ≠ key) :
    (s.put key doc).2.get? other = s.get? other :=
  s.get?_insert_of_ne doc h

theorem get?_patch_of_ne (s : Store) {key other : String} (body : Json) (h : other ≠ key) :
    (s.patch key body).2.get? other = s.get? other := by
  simp only [patch]
  split
  · rfl
  · split
    · exact s.get?_insert_of_ne _ h
    · rfl

theorem get?_remove_of_ne (s : Store) {key other : String} (h : other ≠ key) :
    (s.remove key).2.get? other = s.get? other :=
  s.get?_erase_of_ne h

/-- **Two stores with the same look-ups are equal.** -/
theorem ext_get? {s t : Store} (h : ∀ key, s.get? key = t.get? key) : s = t := by
  obtain ⟨a, ha⟩ := s
  obtain ⟨b, hb⟩ := t
  have : a = b := Members.eq_of_get? ha hb h
  subst this
  rfl

theorem insert_of_get? {s : Store} {key : String} {doc : Json} (h : s.get? key = some doc) :
    s.insert key doc = s := by
  refine ext_get? fun other => ?_
  by_cases hother : other = key
  · rw [hother, get?_insert_self, h]
  · exact get?_insert_of_ne s doc hother

theorem erase_of_get? {s : Store} {key : String} (h : s.get? key = none) : s.erase key = s := by
  refine ext_get? fun other => ?_
  by_cases hother : other = key
  · rw [hother, get?_erase_self, h]
  · exact get?_erase_of_ne s hother

end Store

end DataRepository
