/-!
# Base 64

Three octets become four characters of an alphabet of 64; a last group of one or two octets is
filled up with equals signs.
-/

namespace SwarmUpkeep.Base64

def alphabet : List Char :=
  "ABCDEFGHIJKLMNOPQRSTUVWXYZabcdefghijklmnopqrstuvwxyz0123456789+/".toList

def digit (n : Nat) : Char :=
  alphabet.getD (n % 64) '='

def encode : List UInt8 → List Char
  | [] => []
  | [a] =>
      let n := a.toNat * 65536
      [digit (n / 262144), digit (n / 4096), '=', '=']
  | [a, b] =>
      let n := a.toNat * 65536 + b.toNat * 256
      [digit (n / 262144), digit (n / 4096), digit (n / 64), '=']
  | a :: b :: c :: rest =>
      let n := a.toNat * 65536 + b.toNat * 256 + c.toNat
      digit (n / 262144) :: digit (n / 4096) :: digit (n / 64) :: digit n :: encode rest

/-- The octets of a text, encoded. -/
def ofText (s : String) : String :=
  String.ofList (encode s.toUTF8.toList)

example : encode [0x4d, 0x61, 0x6e] = ['T', 'W', 'F', 'u'] := by decide
example : encode [0x4d] = ['T', 'Q', '=', '='] := by decide

end SwarmUpkeep.Base64
