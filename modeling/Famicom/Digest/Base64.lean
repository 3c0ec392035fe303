/-!
# Base64

Every three bytes become four digits of six bits, and a shorter last group is filled up with `=`.

## Main definitions

* `Base64.digit` — the digit with a value
* `Base64.encode` — the text of a list of bytes
-/

namespace Famicom.Digest.Base64

/-- The digits by their values. -/
def alphabet : Array Char :=
  "ABCDEFGHIJKLMNOPQRSTUVWXYZabcdefghijklmnopqrstuvwxyz0123456789+/".toList.toArray

/-- The digit with the value of the lowest six bits. -/
def digit (value : Nat) : Char :=
  alphabet.getD (value % 64) '='

/-- The digits of a list of bytes. -/
def digits : List UInt8 → List Char
  | a :: b :: c :: rest =>
    let n := a.toNat * 65536 + b.toNat * 256 + c.toNat
    digit (n / 262144) :: digit (n / 4096) :: digit (n / 64) :: digit n :: digits rest
  | [a, b] =>
    let n := a.toNat * 65536 + b.toNat * 256
    [digit (n / 262144), digit (n / 4096), digit (n / 64), '=']
  | [a] =>
    let n := a.toNat * 65536
    [digit (n / 262144), digit (n / 4096), '=', '=']
  | [] => []

/-- The text of bytes. -/
def encode (bytes : ByteArray) : String :=
  String.ofList (digits bytes.data.toList)

end Famicom.Digest.Base64
