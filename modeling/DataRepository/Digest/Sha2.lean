import DataRepository.Number.BigEndian

/-!
# The digests SHA-256 and SHA-512

A message is padded to whole blocks of sixteen words; each block is mixed into eight words, which are
the digest.  The two digests differ in the size of the words, the number of rounds and the turns.

- `length_digest`: a digest has eight words, whatever the message.
-/
namespace DataRepository.Digest

/-- The words that the rounds add: the fractional parts of the cube roots of the first primes. -/
def cubeRoots : List Nat := [
  0x428a2f98d728ae22, 0x7137449123ef65cd, 0xb5c0fbcfec4d3b2f, 0xe9b5dba58189dbbc,
  0x3956c25bf348b538, 0x59f111f1b605d019, 0x923f82a4af194f9b, 0xab1c5ed5da6d8118,
  0xd807aa98a3030242, 0x12835b0145706fbe, 0x243185be4ee4b28c, 0x550c7dc3d5ffb4e2,
  0x72be5d74f27b896f, 0x80deb1fe3b1696b1, 0x9bdc06a725c71235, 0xc19bf174cf692694,
  0xe49b69c19ef14ad2, 0xefbe4786384f25e3, 0x0fc19dc68b8cd5b5, 0x240ca1cc77ac9c65,
  0x2de92c6f592b0275, 0x4a7484aa6ea6e483, 0x5cb0a9dcbd41fbd4, 0x76f988da831153b5,
  0x983e5152ee66dfab, 0xa831c66d2db43210, 0xb00327c898fb213f, 0xbf597fc7beef0ee4,
  0xc6e00bf33da88fc2, 0xd5a79147930aa725, 0x06ca6351e003826f, 0x142929670a0e6e70,
  0x27b70a8546d22ffc, 0x2e1b21385c26c926, 0x4d2c6dfc5ac42aed, 0x53380d139d95b3df,
  0x650a73548baf63de, 0x766a0abb3c77b2a8, 0x81c2c92e47edaee6, 0x92722c851482353b,
  0xa2bfe8a14cf10364, 0xa81a664bbc423001, 0xc24b8b70d0f89791, 0xc76c51a30654be30,
  0xd192e819d6ef5218, 0xd69906245565a910, 0xf40e35855771202a, 0x106aa07032bbd1b8,
  0x19a4c116b8d2d0c8, 0x1e376c085141ab53, 0x2748774cdf8eeb99, 0x34b0bcb5e19b48a8,
  0x391c0cb3c5c95a63, 0x4ed8aa4ae3418acb, 0x5b9cca4f7763e373, 0x682e6ff3d6b2b8a3,
  0x748f82ee5defb2fc, 0x78a5636f43172f60, 0x84c87814a1f0ab72, 0x8cc702081a6439ec,
  0x90befffa23631e28, 0xa4506cebde82bde9, 0xbef9a3f7b2c67915, 0xc67178f2e372532b,
  0xca273eceea26619c, 0xd186b8c721c0c207, 0xeada7dd6cde0eb1e, 0xf57d4f7fee6ed178,
  0x06f067aa72176fba, 0x0a637dc5a2c898a6, 0x113f9804bef90dae, 0x1b710b35131c471b,
  0x28db77f523047d84, 0x32caab7b40c72493, 0x3c9ebe0a15c9bebc, 0x431d67c49c100d4c,
  0x4cc5d4becb3e42b6, 0x597f299cfc657e2a, 0x5fcb6fab3ad6faec, 0x6c44198c4a475817]

/-- The fractional parts of the square roots of the first primes. -/
def squareRoots : List Nat := [
  0x6a09e667f3bcc908, 0xbb67ae8584caa73b, 0x3c6ef372fe94f82b, 0xa54ff53a5f1d36f1,
  0x510e527fade682d1, 0x9b05688c2b3e6c1f, 0x1f83d9abfb41bd6b, 0x5be0cd19137e2179]

/-- What a word is mixed with: itself turned right by three distances, of which the last one drops the
bits that go over the end in the schedule. -/
structure Turns where
  (first second third : Nat)

structure Variant where
  /-- The bytes in a word, which are eight at most. -/
  width : Nat
  rounds : Nat
  (upper lower late early : Turns)

namespace Variant

/-- The digest with words of four bytes. -/
def short : Variant := ⟨4, 64, ⟨2, 13, 22⟩, ⟨6, 11, 25⟩, ⟨17, 19, 10⟩, ⟨7, 18, 3⟩⟩

/-- The digest with words of eight bytes. -/
def long : Variant := ⟨8, 80, ⟨28, 34, 39⟩, ⟨14, 18, 41⟩, ⟨19, 61, 6⟩, ⟨1, 8, 7⟩⟩

abbrev Word (v : Variant) := BitVec (8 * v.width)

/-- The word of the highest bits of a fractional part. -/
def leading (v : Variant) (fraction : Nat) : v.Word :=
  BitVec.ofNat _ (fraction >>> (64 - 8 * v.width))

/-- The eight words of the state. -/
structure State (v : Variant) where
  (a b c d e f g h : v.Word)

def initial (v : Variant) : State v :=
  let at_ (i : Nat) := v.leading (squareRoots.getD i 0)
  ⟨at_ 0, at_ 1, at_ 2, at_ 3, at_ 4, at_ 5, at_ 6, at_ 7⟩

/-- A word mixed with itself. -/
def turned (v : Variant) (t : Turns) (x : v.Word) : v.Word :=
  x.rotateRight t.first ^^^ x.rotateRight t.second ^^^ x.rotateRight t.third

/-- A word mixed with itself, the bits that go over the end in the last turn left out. -/
def shifted (v : Variant) (t : Turns) (x : v.Word) : v.Word :=
  x.rotateRight t.first ^^^ x.rotateRight t.second ^^^ (x >>> t.third)

/-- One round on a word of the schedule and a constant. -/
def round (v : Variant) (s : State v) (w : v.Word × Nat) : State v :=
  let choice := (s.e &&& s.f) ^^^ (~~~s.e &&& s.g)
  let majority := (s.a &&& s.b) ^^^ (s.a &&& s.c) ^^^ (s.b &&& s.c)
  let t₁ := s.h + v.turned v.lower s.e + choice + w.1 + v.leading w.2
  let t₂ := v.turned v.upper s.a + majority
  ⟨t₁ + t₂, s.a, s.b, s.c, s.d + t₁, s.e, s.f, s.g⟩

/-- The next word of the schedule, from the words so far with the latest in front. -/
def nextWord (v : Variant) (latest : List v.Word) : v.Word :=
  let at_ (i : Nat) := latest.getD (i - 1) 0
  v.shifted v.late (at_ 2) + at_ 7 + v.shifted v.early (at_ 15) + at_ 16

/-- `n` more words of the schedule, the latest in front. -/
def extendSchedule (v : Variant) : Nat → List v.Word → List v.Word
  | 0, latest => latest
  | n + 1, latest => extendSchedule v n (v.nextWord latest :: latest)

def words (v : Variant) : Nat → Bytes → List v.Word
  | 0, _ => []
  | count + 1, bs =>
    BitVec.ofNat _ (BigEndian.value (bs.take v.width)) :: words v count (bs.drop v.width)

def block (v : Variant) (s : State v) (ws : List v.Word) : State v :=
  let schedule := (v.extendSchedule (v.rounds - 16) ws.reverse).reverse
  let t := (schedule.zip cubeRoots).foldl v.round s
  ⟨s.a + t.a, s.b + t.b, s.c + t.c, s.d + t.d, s.e + t.e, s.f + t.f, s.g + t.g, s.h + t.h⟩

def blocks (v : Variant) : Nat → State v → List v.Word → State v
  | 0, s, _ => s
  | count + 1, s, ws => v.blocks count (v.block s (ws.take 16)) (ws.drop 16)

def blockSize (v : Variant) : Nat := 16 * v.width

/-- The message with the bit, the zeros and the length that fill its last block. -/
def padded (v : Variant) (message : Bytes) : Bytes :=
  let zeros := (2 * v.blockSize - 1 - 2 * v.width - message.length % v.blockSize) % v.blockSize
  message ++ 0x80 :: List.replicate zeros 0 ++ BigEndian.bytes (2 * v.width) (message.length * 8)

def digest (v : Variant) (message : Bytes) : Bytes :=
  let bs := v.padded message
  let count := bs.length / v.blockSize
  let s := v.blocks count v.initial (v.words (16 * count) bs)
  [s.a, s.b, s.c, s.d, s.e, s.f, s.g, s.h].flatMap fun w => BigEndian.bytes v.width w.toNat

/-- **A digest has eight words.** -/
theorem length_digest (v : Variant) (message : Bytes) :
    (v.digest message).length = 8 * v.width := by
  simp [digest, BigEndian.length_bytes]
  omega

end Variant

/-- The digest of thirty-two bytes of a message. -/
def sha256 (message : Bytes) : Bytes := Variant.short.digest message

def sha512 (message : Bytes) : Bytes := Variant.long.digest message

theorem length_sha256 (message : Bytes) : (sha256 message).length = 32 :=
  Variant.length_digest _ _

theorem length_sha512 (message : Bytes) : (sha512 message).length = 64 :=
  Variant.length_digest _ _

example : sha256 [] = BigEndian.bytes 32
    0xe3b0c44298fc1c149afbf4c8996fb92427ae41e4649b934ca495991b7852b855 := by decide +kernel

end DataRepository.Digest
