import DataRepository.Server.Fault

/-!
# Schemes

The transport of the endpoint, by the name that the settings give it.
-/
namespace DataRepository.Server

inductive Scheme where
  | http
  | https
deriving DecidableEq

namespace Scheme

def name : Scheme → String
  | http => "http"
  | https => "https"

/-- The scheme of this name; names are taken letter by letter. -/
def ofName (name : String) : Except Fault Scheme :=
  if name = "http" then .ok http
  else if name = "https" then .ok https
  else .error (.configuration ("invalid SBI scheme: " ++ name))

/-- **A name stands for a scheme exactly when it is the name of it.** -/
theorem ofName_eq_ok_iff {text : String} {s : Scheme} : ofName text = .ok s ↔ text = s.name := by
  unfold ofName
  cases s
  case http =>
    by_cases h : text = "http"
    · simp [h, name]
    · by_cases hs : text = "https" <;> simp [h, hs, name]
  case https =>
    by_cases h : text = "http"
    · simp [h, name]
    · by_cases hs : text = "https" <;> simp [h, hs, name]

end Scheme

end DataRepository.Server
