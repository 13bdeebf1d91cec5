import DataRepository.Tls.Certificate
import DataRepository.Tls.Pem
import DataRepository.Tls.PrivateKey

/-!
# The identity of an endpoint

The certificate chain and the private key with which a secured endpoint presents itself.  The first
certificate of the chain must be for the public key that belongs to the private key.
-/
namespace DataRepository.Tls

inductive Refusal where
  | malformedChain
  | noCertificate
  | malformedKey
  | noKey
  | unusable
deriving DecidableEq

def Refusal.text : Refusal → String
  | malformedChain => "failed to parse TLS certificate chain"
  | noCertificate => "no certificate found in PEM data"
  | malformedKey => "failed to read TLS private key"
  | noKey => "no private key found in PEM data"
  | unusable => "failed to build rustls ServerConfig"

/-- The protocols that are offered above the transport, the preferred one first. -/
def applicationProtocols : List String := ["h2", "http/1.1"]

/-! ## Identities -/

/-- A chain and the key for its first certificate. -/
structure Identity where
  chain : List Bytes
  key : PrivateKey
deriving DecidableEq

/-- The certificates in a file: all of it must be well formed, and there must be one. -/
def certificates (file : Bytes) : Except Refusal (List Bytes) :=
  let contents := Pem.contents file
  let found := contents.sections.filter (·.kind = .certificate)
  if ! contents.isWhole then .error .malformedChain
  else if found = [] then .error .noCertificate
  else .ok (found.map (·.content))

def isPrivateKey (s : Pem.Section) : Bool :=
  s.kind = .privateKey ∨ s.kind = .ecPrivateKey ∨ s.kind = .rsaPrivateKey

/-- The first private key in a file; what comes after it does not matter. -/
def keySection (file : Bytes) : Except Refusal Pem.Section :=
  let contents := Pem.contents file
  match contents.sections.find? isPrivateKey with
  | some s => .ok s
  | none => .error (if contents.isWhole then .noKey else .malformedKey)

def Pem.Section.privateKey? (s : Pem.Section) : Option PrivateKey :=
  match s.kind with
  | .privateKey => PrivateKey.ofEnvelope? s.content
  | .ecPrivateKey => PrivateKey.ofBare? s.content
  | .rsaPrivateKey => PrivateKey.ofRsa? s.content
  | _ => none

/-- The identity that a chain and a key make. -/
def Identity.ofParts? (chain : List Bytes) (s : Pem.Section) : Option Identity := do
  let key ← s.privateKey?
  let certified ← Certificate.certifiedKey? (← chain.head?)
  if certified = key.publicInfo then return ⟨chain, key⟩ else none

/-- Reads an identity from the files of the chain and the key; faults of the chain come first. -/
def Identity.load (chainFile keyFile : Bytes) : Except Refusal Identity := do
  let chain ← certificates chainFile
  let s ← keySection keyFile
  match Identity.ofParts? chain s with
  | some identity => .ok identity
  | none => .error .unusable

/-- **An identity has a certificate for its key.** -/
theorem certifiedKey?_of_load {chainFile keyFile : Bytes} {i : Identity}
    (h : Identity.load chainFile keyFile = .ok i) :
    i.chain.head?.bind Certificate.certifiedKey? = some i.key.publicInfo := by
  simp only [Identity.load] at h
  cases hc : certificates chainFile with
  | error e => simp [hc, bind, Except.bind] at h
  | ok c =>
    cases hs : keySection keyFile with
    | error e => simp [hc, hs, bind, Except.bind] at h
    | ok s =>
      simp only [hc, hs, bind, Except.bind] at h
      cases hp : Identity.ofParts? c s with
      | none => simp [hp] at h
      | some j =>
        simp only [hp, Except.ok.injEq] at h
        subst h
        simp only [Identity.ofParts?, Option.bind_eq_bind, Option.bind_eq_some_iff] at hp
        obtain ⟨k, -, head, hhead, certified, hcert, hp⟩ := hp
        split at hp
        · cases hp
          simp_all
        · cases hp

end DataRepository.Tls
