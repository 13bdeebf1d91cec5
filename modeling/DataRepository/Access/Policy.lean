import DataRepository.Access.Bearer
import DataRepository.Access.Token

/-!
# Access policy

Who this instance is, whether its consumers must present an access token, and the key that tokens are
verified with.  `authorize` decides on the value of an authorization header.
-/
namespace DataRepository.Access

structure Policy where
  instanceId : String
  tokenRequired : Bool
  key : Option Bytes
deriving DecidableEq

/-- Whether the header value gives access to the service at time `now`; an absent header is the empty
value. -/
def Policy.authorize (p : Policy) (header : String) (service : Service) (now : UInt64) :
    Except Denial Unit := do
  if p.tokenRequired then
    if Text.isAllBlank header then throw .missingToken
    match bearerToken? header with
    | none => throw .notBearer
    | some token =>
      match p.key with
      | none => throw .invalidKey
      | some key => discard (verify key token service now)

end DataRepository.Access
