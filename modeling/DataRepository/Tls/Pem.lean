import DataRepository.Text.Utf8

/-!
# Textual encoding of keys and certificates

A file of sections.  A section stands between a line that begins it and a line that ends it, both with
its label, and holds bytes in base64.  Text between the sections is passed over, and so is a section
with a label that is not known.  White space in a section is passed over, and padding at its end can be
left out.  Sections are read up to the first fault.
-/
namespace DataRepository.Tls.Pem

/-! ## Base64 -/

def sextet? (b : UInt8) : Option Nat :=
  let n := b.toNat
  if 65 ≤ n ∧ n ≤ 90 then some (n - 65)
  else if 97 ≤ n ∧ n ≤ 122 then some (n - 71)
  else if 48 ≤ n ∧ n ≤ 57 then some (n + 4)
  else if n = 43 then some 62
  else if n = 47 then some 63
  else none

/-- Whether a byte is passed over. -/
def isSpace (b : UInt8) : Bool := (9 ≤ b ∧ b ≤ 13) ∨ b = 32

def isPadding (b : UInt8) : Bool := b = 61

/-- The whole bytes of a sequence of groups of six bits. -/
def bytesOfSextets : List Nat → Bytes
  | a :: b :: c :: d :: rest =>
    (a * 4 + b / 16).toUInt8 :: (b % 16 * 16 + c / 4).toUInt8 :: (c % 4 * 64 + d).toUInt8 ::
      bytesOfSextets rest
  | [a, b, c] => [(a * 4 + b / 16).toUInt8, (b % 16 * 16 + c / 4).toUInt8]
  | [a, b] => [(a * 4 + b / 16).toUInt8]
  | _ => []

/-- Whether so many digits and so much padding may be a text.  Padding fills up the last group of four,
or part of it, and a group has two digits at least. -/
def mayEnd (digits padding : Nat) : Bool :=
  digits % 4 ≠ 1 ∧ (padding = 0 ∨ 2 ≤ digits % 4 ∧ digits % 4 + padding ≤ 4)

def decode? (text : Bytes) : Option Bytes := do
  let shown := text.filter (! isSpace ·)
  let digits := shown.takeWhile (! isPadding ·)
  let padding := shown.drop digits.length
  if padding.all isPadding ∧ mayEnd digits.length padding.length then
    return bytesOfSextets (← digits.mapM sextet?)
  else none

/-! ## Sections -/

inductive Kind where
  | certificate
  | publicKey
  | rsaPrivateKey
  | privateKey
  | ecPrivateKey
  | revocationList
  | certificateRequest
  | helloConfiguration
deriving DecidableEq

def Kind.label : Kind → String
  | certificate => "CERTIFICATE"
  | publicKey => "PUBLIC KEY"
  | rsaPrivateKey => "RSA PRIVATE KEY"
  | privateKey => "PRIVATE KEY"
  | ecPrivateKey => "EC PRIVATE KEY"
  | revocationList => "X509 CRL"
  | certificateRequest => "CERTIFICATE REQUEST"
  | helloConfiguration => "ECHCONFIG"

def Kind.ofLabel? (label : Bytes) : Option Kind :=
  [certificate, publicKey, rsaPrivateKey, privateKey, ecPrivateKey, revocationList,
    certificateRequest, helloConfiguration].find? fun k => Text.bytes k.label == label

structure Section where
  kind : Kind
  content : Bytes
deriving DecidableEq

/-- The sections of a file up to its first fault, if there is one. -/
structure Contents where
  sections : List Section
  isWhole : Bool
deriving DecidableEq

def opening : Bytes := Text.bytes "-----BEGIN "

def closing (label : Bytes) : Bytes := Text.bytes "-----END " ++ label ++ Text.bytes "-----"

/-- What a line says about the start of a section. -/
inductive Opening where
  | absent
  | malformed
  | label (text : Bytes)

/-- Reads a line as the start of a section.  Five dashes stand at its end, apart from spaces. -/
def Opening.ofLine (line : Bytes) : Opening :=
  if opening.isPrefixOf line then
    let back := line.reverse
    let trailer := back.takeWhile fun b => b = 45 ∨ b = 32
    if (trailer.filter (· = 45)).length = 5 then
      let afterDashes := (trailer.reverse.takeWhile (· ≠ 45)).length
      .label ((line.take (line.length - trailer.length + afterDashes)).drop opening.length)
    else .malformed
  else .absent

/-- A section that has begun: its label, and the lines of it so far, the last one first. -/
structure Pending where
  label : Bytes
  lines : List Bytes

/-- Reads the lines of a file after those of a section that has begun. -/
def contentsOfLines (pending : Option Pending) : List Bytes → Contents
  | [] => ⟨[], pending.isNone⟩
  | line :: rest =>
    match Opening.ofLine line with
    | .malformed => ⟨[], false⟩
    | .label text => contentsOfLines (some ⟨text, (pending.map (·.lines)).getD []⟩) rest
    | .absent =>
      match pending with
      | none => contentsOfLines none rest
      | some p =>
        if (closing p.label).isPrefixOf line then
          match Kind.ofLabel? p.label with
          | none => contentsOfLines none rest
          | some kind =>
            match decode? p.lines.reverse.flatten with
            | none => ⟨[], false⟩
            | some content =>
              let after := contentsOfLines none rest
              { after with sections := ⟨kind, content⟩ :: after.sections }
        else contentsOfLines (some { p with lines := line :: p.lines }) rest

/-- The lines of a file; a line feed or a carriage return ends a line. -/
def lines (file : Bytes) : List Bytes := file.splitOnP fun b => b = 10 ∨ b = 13

def contents (file : Bytes) : Contents := contentsOfLines none (lines file)

/-- A file without dashes holds nothing and is well formed. -/
example : contents (Text.bytes "not a section\n") = ⟨[], true⟩ := by decide +kernel

example : contents (Text.bytes "x\n-----BEGIN PUBLIC KEY-----\nAQI=\n-----END PUBLIC KEY-----\n") =
    ⟨[⟨.publicKey, [1, 2]⟩], true⟩ := by decide +kernel

/-- A section that does not end is a fault. -/
example : contents (Text.bytes "-----BEGIN PUBLIC KEY-----\nAQI=\n") = ⟨[], false⟩ := by
  decide +kernel

end DataRepository.Tls.Pem
