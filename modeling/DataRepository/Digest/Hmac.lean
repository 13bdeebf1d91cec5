import DataRepository.Digest.Sha2

/-!
# HMAC-SHA256

The authentication code of a message under a key of any length: a key longer than a block stands for
its digest, a shorter one is filled with zeros.
-/
namespace DataRepository.Digest

/-- The key as one block of sixty-four bytes. -/
def keyBlock (key : Bytes) : Bytes :=
  let k := if 64 < key.length then sha256 key else key
  k ++ List.replicate (64 - k.length) 0

def hmacSha256 (key message : Bytes) : Bytes :=
  let k := keyBlock key
  sha256 (k.map (· ^^^ 0x5c) ++ sha256 (k.map (· ^^^ 0x36) ++ message))

/-- An authentication code has thirty-two bytes. -/
theorem length_hmacSha256 (key message : Bytes) : (hmacSha256 key message).length = 32 :=
  length_sha256 _

end DataRepository.Digest
