import DataRepository.Json.Record
import DataRepository.Settings

/-!
# Settings as documents

Settings that come as a document, with the types of their members as they are.  What is left out has
its default; nothing is converted and nothing is judged.
-/
namespace DataRepository

open Json (Member Record Reader)

namespace KeyFiles

structure Draft where
  certificate : Option String := none
  key : Option String := none

def record : Record Draft KeyFiles where
  title := "struct TlsConfig"
  members := [
    .of "pem" .text (·.certificate) (fun v d => { d with certificate := some v }) true,
    .of "key" .text (·.key) (fun v d => { d with key := some v }) true]
  empty := {}
  finish d := .ok { certificate := d.certificate.getD "", key := d.key.getD "" }

end KeyFiles

namespace ListenerSettings

structure Draft where
  scheme : Option String := none
  address : Option String := none
  port : Option UInt16 := none
  keyFiles : Option KeyFiles := none

def record : Record Draft ListenerSettings where
  title := "struct SbiConfig"
  members := [
    .of "scheme" .text (·.scheme) (fun v d => { d with scheme := some v }) true,
    .of "binding_ipv4" .text (·.address) (fun v d => { d with address := some v }) true,
    .of "port" .word16 (·.port) (fun v d => { d with port := some v }) true,
    .of "tls" KeyFiles.record.reader (·.keyFiles) (fun v d => { d with keyFiles := some v }) true]
  empty := {}
  finish d :=
    let default : ListenerSettings := {}
    .ok {
      scheme := d.scheme.getD default.scheme
      address := d.address.getD default.address
      port := d.port.getD default.port
      keyFiles := d.keyFiles.getD default.keyFiles }

end ListenerSettings

namespace Settings

structure Draft where
  listener : Option ListenerSettings := none
  instanceId : Option String := none
  tokenRequired : Option Bool := none
  tokenKey : Option (Option String) := none
  keyLogPath : Option (Option String) := none
  drainMilliseconds : Option UInt64 := none
  logLevel : Option String := none

/-- Settings as records of documents; `freshId` names an instance without a name. -/
def record (freshId : String) : Record Draft Settings where
  title := "struct Config"
  members := [
    .of "sbi" ListenerSettings.record.reader (·.listener)
      (fun v d => { d with listener := some v }) true,
    .of "nf_instance_id" .text (·.instanceId) (fun v d => { d with instanceId := some v }) true,
    .of "oauth2_required" .flag (·.tokenRequired)
      (fun v d => { d with tokenRequired := some v }) true,
    .of "nrf_token_key" (.optional .text) (·.tokenKey)
      (fun v d => { d with tokenKey := some v }) true,
    .of "tls_key_log_path" (.optional .path) (·.keyLogPath)
      (fun v d => { d with keyLogPath := some v }) true,
    .of "shutdown_timeout_ms" .word64 (·.drainMilliseconds)
      (fun v d => { d with drainMilliseconds := some v }) true,
    .of "log_level" .text (·.logLevel) (fun v d => { d with logLevel := some v }) true]
  empty := {}
  finish d :=
    let default : Settings := { instanceId := freshId }
    .ok {
      listener := d.listener.getD default.listener
      instanceId := d.instanceId.getD default.instanceId
      tokenRequired := d.tokenRequired.getD default.tokenRequired
      tokenKey := d.tokenKey.join
      keyLogPath := d.keyLogPath.join
      drainMilliseconds := d.drainMilliseconds.getD default.drainMilliseconds
      logLevel := d.logLevel.getD default.logLevel }

def ofJson (freshId : String) (j : Json) : Except Json.Mismatch Settings := (record freshId).fromJson j

/-- An empty document stands for the defaults. -/
example : ofJson "udr-1" (.object []) = .ok { instanceId := "udr-1" } := by rfl

end Settings

end DataRepository
