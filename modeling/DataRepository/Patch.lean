import DataRepository.Patch.Item
import DataRepository.Patch.Merge

/-!
# Patching a document

The body of a patch is an array of items, applied in order up to the first that is refused, or an
object, which is a merge patch and is never refused.
-/
namespace DataRepository.Patch

/-- What a patch made of a document: the document as it was left, and the refusal that ended it. -/
structure Outcome where
  document : Json
  refusal : Option Refusal
deriving DecidableEq

/-- Applies the items in order; the first that is refused ends the patch. -/
def applyItems (target : Json) : List Json → Outcome
  | [] => ⟨target, none⟩
  | i :: rest =>
    match Item.ofJson i >>= fun item => item.apply target with
    | .ok target => applyItems target rest
    | .error why => ⟨target, some why⟩

def apply (target patch : Json) : Outcome :=
  match patch with
  | .array items => applyItems target items
  | .object _ => ⟨merge target patch, none⟩
  | _ => ⟨target, some .invalidBody⟩

/-- The patched document, if nothing was refused. -/
def patched (target patch : Json) : Except Refusal Json :=
  match apply target patch with
  | ⟨_, some why⟩ => .error why
  | ⟨j, none⟩ => .ok j

end DataRepository.Patch
