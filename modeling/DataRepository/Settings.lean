import DataRepository.Access.Policy
import DataRepository.Duration
import DataRepository.Settings.Path

/-!
# The settings of an instance

Settings come from a configuration file, if there is one, and from the environment, which wins; what
neither gives has a default.  A table of settings may also be a list of their values in the order of
their declaration.
-/
namespace DataRepository

/-- Where the certificate chain and the private key are; an empty path stands for the default. -/
structure KeyFiles where
  certificate : String := ""
  key : String := ""
deriving DecidableEq

structure ListenerSettings where
  scheme : String := "http"
  address : String := "127.0.0.4"
  port : UInt16 := 8000
  keyFiles : KeyFiles := {}
deriving DecidableEq

structure Settings where
  listener : ListenerSettings := {}
  instanceId : String
  tokenRequired : Bool := false
  tokenKey : Option String := none
  keyLogPath : Option String := none
  drainMilliseconds : UInt64 := 2000
  logLevel : String := "info"
deriving DecidableEq

namespace Settings

/-! ## Reading tables -/

/-- Where the members of a record of settings are: in a table under their names, or in a list at
their positions. -/
inductive Fields where
  | named (members : List (String × Value))
  | listed (items : List Value)

def Fields.ofValue? : Value → Option Fields
  | .table members => some (.named members)
  | .list items => some (.listed items)
  | _ => none

def Fields.value? (f : Fields) (name : String) (position : Nat) : Option Value :=
  match f with
  | .named members => member? name members
  | .listed items => items[position]?

/-- A field of a type, or its default when it is not given. -/
def Fields.get {α : Type} (f : Fields) (name : String) (position : Nat) (as : Value → Option α)
    (default : α) : Option α :=
  match f.value? name position with
  | some v => as v
  | none => some default

def asPort? (v : Value) : Option UInt16 :=
  (v.asWord?.filter (· < UInt16.size)).map Nat.toUInt16

/-- The key files that a value describes. -/
def keyFiles? (v : Value) : Option KeyFiles := do
  let f ← Fields.ofValue? v
  return {
    certificate := ← f.get "pem" 0 Value.asText? ""
    key := ← f.get "key" 1 Value.asText? "" }

def listener? (v : Value) : Option ListenerSettings := do
  let f ← Fields.ofValue? v
  let default : ListenerSettings := {}
  return {
    scheme := ← f.get "scheme" 0 Value.asText? default.scheme
    address := ← f.get "binding_ipv4" 1 Value.asText? default.address
    port := ← f.get "port" 2 asPort? default.port
    keyFiles := ← f.get "tls" 3 keyFiles? default.keyFiles }

/-- The settings that a table of members describes; `freshId` names an instance without a name. -/
def ofMembers? (freshId : String) (members : List (String × Value)) : Option Settings := do
  let f : Fields := .named members
  let default : Settings := { instanceId := freshId }
  return {
    listener := ← f.get "sbi" 0 listener? default.listener
    instanceId := ← f.get "nf_instance_id" 1 Value.asText? default.instanceId
    tokenRequired := ← f.get "oauth2_required" 2 Value.asFlag? default.tokenRequired
    tokenKey := ← f.get "nrf_token_key" 3 (Value.asOptional? Value.asText?) default.tokenKey
    keyLogPath := ← f.get "tls_key_log_path" 4 (Value.asOptional? Value.asText?) default.keyLogPath
    drainMilliseconds := ←
      f.get "shutdown_timeout_ms" 5 (fun v => v.asWord?.map Nat.toUInt64) default.drainMilliseconds
    logLevel := ← f.get "log_level" 6 Value.asText? default.logLevel }

/-! ## Loading -/

/-- What a configuration file is found to be. -/
inductive File where
  | unnamed
  | unreadable
  | text (content : String)

inductive Flaw where
  | noAddress
  | noPort
  | noDrainTime
  | noTokenKey
deriving DecidableEq

/-- Why no settings are loaded. -/
inductive LoadError where
  | unreadable
  | namelessKey
  | illTyped
  | flawed (f : Flaw)
deriving DecidableEq

def Flaw.text : Flaw → String
  | noAddress => "sbi.binding_ipv4 is required and must not be empty"
  | noPort => "sbi.port must be a non-zero port"
  | noDrainTime => "shutdown_timeout_ms must be > 0"
  | noTokenKey => "nrf_token_key is required when oauth2_required is set"

def LoadError.text : LoadError → String
  | unreadable => "failed to build configuration"
  | namelessKey => "internal error: entered unreachable code"
  | illTyped => "failed to deserialise configuration"
  | flawed f => f.text

/-- Whether a token key can be used: it is there and not all blank. -/
def hasTokenKey (s : Settings) : Bool :=
  match s.tokenKey with
  | some key => ! Text.isAllBlank key
  | none => false

def flaw? (s : Settings) : Option Flaw :=
  if Text.isAllBlank s.listener.address then some .noAddress
  else if s.listener.port = 0 then some .noPort
  else if s.drainMilliseconds = 0 then some .noDrainTime
  else if s.tokenRequired ∧ ! s.hasTokenKey then some .noTokenKey
  else none

def ofNamed : File → Except LoadError (List (String × Value))
  | .unnamed => .ok []
  | .unreadable => .error .unreadable
  | .text content =>
    match ofFile content with
    | .ok members => .ok members
    | .error .malformed => .error .unreadable
    | .error .namelessKey => .error .namelessKey

/-- The members that file and environment give; those of the environment win. -/
def members (file : File) (vars : List (String × String)) :
    Except LoadError (List (String × Value)) :=
  (ofNamed file).map fun given => apply (apply [] given) (ofVariables vars)

def load (freshId : String) (file : File) (vars : List (String × String)) :
    Except LoadError Settings :=
  match members file vars with
  | .error why => .error why
  | .ok members =>
    match ofMembers? freshId members with
    | none => .error .illTyped
    | some s =>
      match s.flaw? with
      | some f => .error (.flawed f)
      | none => .ok s

/-! ## What settings stand for -/

def drainTime (s : Settings) : Duration := .ofMilliseconds s.drainMilliseconds.toNat

def policy (s : Settings) : Access.Policy where
  instanceId := s.instanceId
  tokenRequired := s.tokenRequired
  key := s.tokenKey.map Text.bytes

/-- **Loaded settings have no flaw.** -/
theorem flaw?_of_load {freshId : String} {file : File} {vars : List (String × String)}
    {s : Settings} (h : load freshId file vars = .ok s) : s.flaw? = none := by
  simp only [load] at h
  split at h
  · cases h
  · split at h
    · cases h
    · split at h
      · cases h
      · cases h
        assumption

end Settings

end DataRepository
