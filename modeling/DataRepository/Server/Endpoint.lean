import DataRepository.Server.Lifecycle
import DataRepository.Server.Scheme
import DataRepository.Settings
import DataRepository.Telemetry.Event
import DataRepository.Tls.Identity

/-!
# Endpoints

What a server listens on: a scheme, an address, and the identity for a secured endpoint.  The scheme is
settled before anything else is touched, and the files are read before the socket is opened.
-/
namespace DataRepository

/-- Where keys are when the settings do not say it. -/
def KeyFiles.default : KeyFiles := { certificate := "./cert/udr.pem", key := "./cert/udr.key" }

/-- The key files that are used: those of the settings, each with its default when it is empty. -/
def KeyFiles.resolved (k : KeyFiles) : KeyFiles where
  certificate := if k.certificate = "" then default.certificate else k.certificate
  key := if k.key = "" then default.key else k.key

def ListenerSettings.socketAddress (l : ListenerSettings) : String :=
  l.address ++ ":" ++ toString l.port.toNat

namespace Server

/-- What a server finds outside of it: the contents of files, and the reasons for which a file cannot
be written or an address cannot be listened on. -/
structure Surroundings where
  file? : String → Option Bytes
  appendFault? : String → Option String := fun _ => none
  listenFault? : String → Option String := fun _ => none

structure Endpoint where
  scheme : Scheme
  address : String
  identity : Option Tls.Identity := none
deriving DecidableEq

namespace Endpoint

/-- Why a secured endpoint has no identity. -/
inductive Obstacle where
  | keyLog (cause : String)
  | noCertificateFile (path : String)
  | noKeyFile (path : String)
  | refused (why : Tls.Refusal)
deriving DecidableEq

def Obstacle.text : Obstacle → String
  | keyLog cause => cause
  | noCertificateFile path => "failed to read TLS certificate " ++ path
  | noKeyFile path => "failed to read TLS private key " ++ path
  | refused why => why.text

/-- The identity that the settings name.  The key log is opened before the keys are read. -/
def loadIdentity (around : Surroundings) (s : Settings) : Except Obstacle Tls.Identity := do
  if let some cause := s.keyLogPath.bind around.appendFault? then throw (.keyLog cause)
  let paths := s.listener.keyFiles.resolved
  let some chain := around.file? paths.certificate | throw (.noCertificateFile paths.certificate)
  let some key := around.file? paths.key | throw (.noKeyFile paths.key)
  match Tls.Identity.load chain key with
  | .ok identity => return identity
  | .error why => throw (.refused why)

def prepare (around : Surroundings) (s : Settings) : Except Fault Endpoint :=
  let address := s.listener.socketAddress
  match Scheme.ofName s.listener.scheme with
  | .error fault => .error fault
  | .ok .http => .ok { scheme := .http, address }
  | .ok .https =>
    match loadIdentity around s with
    | .ok identity => .ok { scheme := .https, address, identity := some identity }
    | .error obstacle => .error (.bind address obstacle.text)

def listen (around : Surroundings) (e : Endpoint) : Except Fault Server :=
  match around.listenFault? e.address with
  | some cause => .error (.bind e.address cause)
  | none => .ok (Server.bound (e.scheme = .https))

/-- The endpoint that the settings name and the server that listens on it. -/
def bind (around : Surroundings) (s : Settings) : Except Fault (Endpoint × Server) := do
  let e ← prepare around s
  return (e, ← e.listen around)

/-- **An unknown scheme is refused whatever the files and the network are.** -/
theorem bind_of_unknown_scheme (around : Surroundings) {s : Settings} {fault : Fault}
    (h : Scheme.ofName s.listener.scheme = .error fault) : bind around s = .error fault := by
  simp [bind, prepare, h, Bind.bind, Except.bind]

/-- A server is bound before it is started. -/
theorem state_of_bind {around : Surroundings} {s : Settings} {e : Endpoint} {server : Server}
    (h : bind around s = .ok (e, server)) : server.state = .unstarted ∧ server.listening := by
  simp only [bind] at h
  cases hp : prepare around s with
  | error f => simp [hp, Bind.bind, Except.bind] at h
  | ok e' =>
    cases hl : e'.listen around with
    | error f => simp [hp, hl, Bind.bind, Except.bind] at h
    | ok server' =>
      simp only [hp, hl, Bind.bind, Except.bind, pure, Except.pure, Except.ok.injEq,
        Prod.mk.injEq] at h
      obtain ⟨rfl, rfl⟩ := h
      simp only [listen] at hl
      split at hl
      · cases hl
      · cases hl
        exact ⟨rfl, rfl⟩

end Endpoint

end Server

end DataRepository
