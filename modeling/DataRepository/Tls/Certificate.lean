import DataRepository.Tls.Der

/-!
# Certificates

What is read of a certificate: that it has its form, and the description of the public key that it is
for.  Extensions whose meaning is known have a form of their own and come once; others must not be
critical.
-/
namespace DataRepository.Tls.Certificate

/-- What lengths stay below in a certificate. -/
def limit : Nat := 0xffff

/-! ## Extensions -/

structure Extension where
  name : Bytes
  critical : Bool
  value : Bytes

namespace Extension

def flag? (e : Der.Element) : Option Bool :=
  if e = ⟨Der.boolean, [0xff]⟩ then some true
  else if e = ⟨Der.boolean, [0x00]⟩ then some false
  else none

/-- Reads an extension: a name, whether the extension is critical, which may be left out, and a string
of bytes. -/
def ofElement? (e : Der.Element) : Option Extension := do
  match ← e.parts? limit Der.sequence with
  | [name, value] =>
    if name.tag = Der.objectName ∧ value.tag = Der.octetString then
      return ⟨name.content, false, value.content⟩
    else none
  | [name, critical, value] =>
    let critical ← flag? critical
    if name.tag = Der.objectName ∧ value.tag = Der.octetString then
      return ⟨name.content, critical, value.content⟩
    else none
  | _ => none

/-- The number of the use of the key among the extensions of certificates. -/
def keyUsage : UInt8 := 15

/-- The numbers of the known extensions: the use of the key, other names, basic and name constraints,
points for revocation lists, and the extended use of the key. -/
def known : List UInt8 := [keyUsage, 17, 19, 30, 31, 37]

def number? (x : Extension) : Option UInt8 :=
  match x.name with
  | [0x55, 0x1d, n] => if n ∈ known then some n else none
  | _ => none

/-- Whether an extension can be understood, or need not be. -/
def isSound (x : Extension) : Bool :=
  match x.number? with
  | none => ! x.critical
  | some n => n = keyUsage || (Der.only? limit x.value).any (·.tag = Der.sequence)

end Extension

/-- Whether what comes last in a certificate are extensions, if anything comes. -/
def areExtensions : List Der.Element → Bool
  | [] => true
  | [e] =>
    let list := do
      if e.tag ≠ Der.field 3 then none
      (← (← Der.only? limit e.content).parts? limit Der.sequence).mapM Extension.ofElement?
    list.any fun xs => xs.all (·.isSound) && (xs.filterMap (·.number?)).Nodup
  | _ => false

/-! ## Certificates -/

/-- The description of the public key that a certificate is for.  The certificate must be of version 3
and name the same algorithm inside and outside of its signed part. -/
def certifiedKey? (der : Bytes) : Option Bytes := do
  match ← Der.sequence? limit der with
  | [signed, algorithm, signature] =>
    let _ ← signature.wholeBits? Der.bitString
    match ← signed.parts? limit Der.sequence with
    | version :: serial :: inner :: issuer :: validity :: subject :: key :: extensions =>
      let tags := [serial, inner, issuer, validity, subject, key].map (·.tag)
      if version = ⟨Der.field 0, [Der.integer, 1, 2]⟩ ∧ inner = algorithm ∧
          tags = Der.integer :: List.replicate 5 Der.sequence ∧ areExtensions extensions then
        return key.content
      else none
    | _ => none
  | _ => none

end DataRepository.Tls.Certificate
