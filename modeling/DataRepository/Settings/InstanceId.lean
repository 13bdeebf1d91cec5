import DataRepository.Text.Hexadecimal

/-!
# Names of instances

The name that an instance without a name gets: sixteen random bytes, with the marks of such a name in
two of them, in hexadecimal with dashes between its five groups.
-/
namespace DataRepository.InstanceId

/-- The bytes with the marks of a random name. -/
def marked (random : Bytes) : Bytes :=
  random.mapIdx fun i b =>
    if i = 6 then b &&& 0x0f ||| 0x40 else if i = 8 then b &&& 0x3f ||| 0x80 else b

def groups : List Nat → Bytes → List Bytes
  | [], _ => []
  | n :: ns, bs => bs.take n :: groups ns (bs.drop n)

def ofRandom (random : Bytes) : String :=
  String.ofList (['-'].intercalate
    ((groups [4, 2, 2, 2, 6] (marked random)).map Text.Hexadecimal.encode))

example : ofRandom (List.replicate 16 0xff) = "ffffffff-ffff-4fff-bfff-ffffffffffff" := by
  decide +kernel

end DataRepository.InstanceId
