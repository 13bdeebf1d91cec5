import DataRepository.Digest.Hmac
import DataRepository.Json.Printer
import DataRepository.Service
import DataRepository.Text.Base64Url
import DataRepository.Text.Blank

/-!
# Access tokens

A token is three base64url segments with a dot between two: a header, the claims, and the HMAC-SHA256
of both under the key that the issuer and the verifier share.  `verify` checks the form, the
algorithm, the signature, the expiry and the scope, in this order, and reports the first that fails;
`issue` makes the token that carries given claims.
-/
namespace DataRepository.Access

/-- A segment of a token that holds a document. -/
inductive Segment where
  | header
  | claims
deriving DecidableEq

def Segment.name : Segment → String
  | .header => "header"
  | .claims => "claims"

/-- What is wrong with the form of a token. -/
inductive Flaw where
  | parts
  | encoding (segment : Segment)
  | content (segment : Segment) (fault : String)
  | signatureEncoding
deriving DecidableEq

def Flaw.text : Flaw → String
  | .parts => "expected three dot-separated parts"
  | .encoding s => s.name ++ " is not base64url"
  | .content s fault => "invalid " ++ s.name ++ ": " ++ fault
  | .signatureEncoding => "signature is not base64url"

/-- Why access is refused. -/
inductive Denial where
  | missingToken
  | notBearer
  | malformedToken (flaw : Flaw)
  | unsupportedAlgorithm (algorithm : String)
  | badSignature
  | invalidKey
  | expired
  | insufficientScope (required : Service) (granted : String)
deriving DecidableEq

def Denial.text : Denial → String
  | .missingToken => "missing access token"
  | .notBearer => "authorization header is not a bearer token"
  | .malformedToken flaw => "malformed access token: " ++ flaw.text
  | .unsupportedAlgorithm a => "unsupported token algorithm: " ++ a
  | .badSignature => "access token signature mismatch"
  | .invalidKey => "token verification key is unusable"
  | .expired => "access token expired"
  | .insufficientScope required granted =>
    "scope " ++ Text.quoted granted ++ " does not grant " ++ required.name

/-! ## Header and claims -/

/-- The claims of a token: who issued it, for whom, to whom, for which services, and until when in
seconds. -/
structure Claims where
  issuer : String
  subject : String
  audience : Json
  scope : String
  expiry : UInt64
deriving DecidableEq

structure Claims.Draft where
  issuer : Option String := none
  subject : Option String := none
  audience : Option Json := none
  scope : Option String := none
  expiry : Option UInt64 := none

def Claims.record : Json.Record Claims.Draft Claims where
  title := "struct AccessTokenClaims"
  members := [
    .of "iss" .text (·.issuer) (fun v d => { d with issuer := some v }) false,
    .of "sub" .text (·.subject) (fun v d => { d with subject := some v }) false,
    .of "aud" .document (·.audience) (fun v d => { d with audience := some v }) false,
    .of "scope" .text (·.scope) (fun v d => { d with scope := some v }) false,
    .of "exp" .word64 (·.expiry) (fun v d => { d with expiry := some v }) false]
  empty := {}
  finish d := do
    let issuer ← Json.required "iss" d.issuer
    let subject ← Json.required "sub" d.subject
    let audience ← Json.required "aud" d.audience
    let scope ← Json.required "scope" d.scope
    let expiry ← Json.required "exp" d.expiry
    return { issuer, subject, audience, scope, expiry }

/-- The document of claims, its members in the order of their declaration. -/
def Claims.toJson (c : Claims) : Json :=
  .object [("iss", .string c.issuer), ("sub", .string c.subject), ("aud", c.audience),
    ("scope", .string c.scope), ("exp", .number (.whole (Whole.ofWord c.expiry)))]

/-- The algorithm that a token header names, as a record of a document. -/
def algorithmRecord : Json.Record (Option String) String where
  title := "struct TokenHeader"
  members := [.of "alg" .text id (fun v _ => some v) false]
  empty := none
  finish := Json.required "alg"

def algorithm : String := "HS256"

/-! ## Verifying -/

def readSegment {α : Type} (segment : Segment) (reader : Json.Reader α) (cs : List Char) :
    Except Denial α :=
  match Text.Base64Url.decode? cs with
  | none => .error (.malformedToken (.encoding segment))
  | some bytes =>
    match reader.read bytes with
    | .ok v => .ok v
    | .error f => .error (.malformedToken (.content segment (f.text bytes)))

def signature (key : Bytes) (header claims : List Char) : Bytes :=
  Digest.hmacSha256 key (Text.utf8 (header ++ '.' :: claims))

/-- Whether one of the words of the scope names the service. -/
def grants (scope : String) (service : Service) : Bool :=
  (Text.words scope).contains service.name

/-- The claims of a token that is well formed and signed under the key. -/
def signedClaims (key : Bytes) (token : String) : Except Denial Claims :=
  match token.toList.splitOn '.' with
  | [header, claims, sign] => do
    let alg ← readSegment .header algorithmRecord.reader header
    if alg ≠ algorithm then throw (.unsupportedAlgorithm alg)
    match Text.Base64Url.decode? sign with
    | none => throw (.malformedToken .signatureEncoding)
    | some sign =>
      if sign ≠ signature key header claims then throw .badSignature
      readSegment .claims Claims.record.reader claims
  | _ => .error (.malformedToken .parts)

/-- The claims of a token that is valid for the service at time `now`, in seconds. -/
def verify (key : Bytes) (token : String) (service : Service) (now : UInt64) :
    Except Denial Claims := do
  let claims ← signedClaims key token
  if claims.expiry ≤ now then throw .expired
  if grants claims.scope service then return claims
  else throw (.insufficientScope service claims.scope)

/-! ## Issuing -/

def segment (j : Json) : List Char := Text.Base64Url.encode j.toBytes

/-- The token that carries the claims, signed under the key. -/
def issue (key : Bytes) (claims : Claims) : String :=
  let header := segment (.object [("alg", .string algorithm)])
  let body := segment claims.toJson
  String.ofList
    (header ++ '.' :: body ++ '.' :: Text.Base64Url.encode (signature key header body))

end DataRepository.Access
