import DataRepository.Resource.Command
import DataRepository.Routing.Group

/-!
# The resources of the data repository

The patterns of the resources, the operations that each of them defines, and the table of their
routes.
-/
namespace DataRepository.Resource

open Routing (Route Table)

def servicePath : String := "/nudr-dr/v2"

def authenticationSubscription : String :=
  "/subscription-data/:ueId/authentication-data/authentication-subscription"

def accessData : String := "/subscription-data/:ueId/:servingPlmnId/provisioned-data/am-data"

def sessionData : String := "/subscription-data/:ueId/:servingPlmnId/provisioned-data/sm-data"

def sessionSelectionData : String :=
  "/subscription-data/:ueId/:servingPlmnId/provisioned-data/smf-selection-subscription-data"

def accessContext : String := "/subscription-data/:ueId/context-data/amf-3gpp-access"

def accessPolicy : String := "/policy-data/ues/:ueId/am-data"

def sessionPolicy : String := "/policy-data/ues/:ueId/sm-data"

def endpoint (name : String) (op : Operation) (pattern : String) : Route Operation where
  name
  method := op.method
  pattern
  handler := op

def endpoints : List (Route Operation) := [
  endpoint "QueryAuthSubsData" .query authenticationSubscription,
  endpoint "CreateAuthenticationSubscription" .replace authenticationSubscription,
  endpoint "ModifyAuthenticationSubscription" .modify authenticationSubscription,
  endpoint "RemoveAuthenticationSubscription" .remove authenticationSubscription,
  endpoint "QueryAmData" .query accessData,
  endpoint "CreateAmData" .replace accessData,
  endpoint "QuerySmData" .query sessionData,
  endpoint "CreateSmData" .replace sessionData,
  endpoint "QuerySmfSelectData" .query sessionSelectionData,
  endpoint "CreateSmfSelectData" .replace sessionSelectionData,
  endpoint "QueryAmfContext3gpp" .query accessContext,
  endpoint "CreateAmfContext3gpp" .replace accessContext,
  endpoint "AmfContext3gpp" .modify accessContext,
  endpoint "ReadAccessAndMobilityPolicyData" .query accessPolicy,
  endpoint "CreateAccessAndMobilityPolicyData" .replace accessPolicy,
  endpoint "DeleteAccessAndMobilityPolicyData" .remove accessPolicy,
  endpoint "ReadSessionManagementPolicyData" .query sessionPolicy,
  endpoint "UpdateSessionManagementPolicyData" .modify sessionPolicy]

def table : Table Operation :=
  match Table.build servicePath endpoints with
  | .ok t => t
  | .error _ => .empty servicePath

end DataRepository.Resource
