import DataRepository.Json.Basic

/-!
# Merge patches

A merge patch is a document of the same form as the one it changes: a member with a value is merged
into the member of that name, a `null` removes it, and what is no object replaces the target.
-/
namespace DataRepository.Patch

/-- The members of an object; what is no object has none. -/
def membersOf : Json → Members
  | .object members => members
  | _ => []

mutual
def merge (target : Json) : Json → Json
  | .object members => .object (mergeMembers (membersOf target) members)
  | patch => patch
termination_by structural patch => patch
/-- The members of the target changed by the members of a merge patch, one after the other. -/
def mergeMembers (target : Members) : List (String × Json) → Members
  | [] => target
  | m :: rest => mergeMembers (mergeMember target m) rest
termination_by structural members => members
/-- The members of the target changed by one member of a merge patch. -/
def mergeMember (target : Members) : String × Json → Members
  | (name, patch) =>
    if patch = .null then Members.erase name target
    else Members.insert name (merge ((Members.get? name target).getD .null) patch) target
termination_by structural member => member
end

end DataRepository.Patch
