import DataRepository.Access.Policy
import DataRepository.Failure
import DataRepository.Telemetry.Event

/-!
# The authorization gate

The check in front of the routes of a service.  It reads the authorization header of a request and
nothing else of it, and it changes nothing: a request is let through, or it is answered by a failure.
-/
namespace DataRepository.Access

structure Gate where
  service : Service
  policy : Policy
deriving DecidableEq

namespace Gate

def check (g : Gate) (r : Http.Request) (now : UInt64) : Except Denial Unit :=
  g.policy.authorize r.credential g.service now

def refusal? (g : Gate) (now : UInt64) (r : Http.Request) : Option Http.Response :=
  match g.check r now with
  | .ok () => none
  | .error why => some (Failure.unauthorized why.text).response

def events (g : Gate) (r : Http.Request) (now : UInt64) : List Telemetry.Event :=
  let service := ("service", Json.string g.service.name)
  let waived : Telemetry.Event := {
    level := .debug, target := "udr::context", message := "OAuth2 not required",
    fields := [service] }
  let passed : Telemetry.Event := {
    level := .debug, target := "udr::sbi::auth", message := "authorization check passed",
    fields := [service] }
  let failed (why : Denial) : Telemetry.Event := {
    level := .debug, target := "udr::sbi::auth", message := "authorization check failed",
    fields := [service, ("reason", .string why.text)] }
  match g.check r now with
  | .ok () => if g.policy.tokenRequired then [passed] else [waived, passed]
  | .error why => [failed why]

/-- **The gate lets everything pass where no token is required.** -/
theorem check_of_not_required {g : Gate} (h : g.policy.tokenRequired = false)
    (r : Http.Request) (now : UInt64) : g.check r now = .ok () := by
  simp [check, Policy.authorize, h, pure, Except.pure]

/-- The gate looks at the credential of a request only. -/
theorem check_congr (g : Gate) {r r' : Http.Request} (h : r.credential = r'.credential)
    (now : UInt64) : g.check r now = g.check r' now := by
  simp only [check, h]

end Gate

end DataRepository.Access
