/-!
# Hexadecimal text

## Main definitions

* `Hex.upper` — a number in upper-case digits with a least width
* `Hex.lower` — the same in lower case
-/

namespace Famicom.Hex

/-- The digits of a number with leading zeros up to a width. -/
def padded (digits : List Char) (width : Nat) : String :=
  String.ofList (List.replicate (width - digits.length) '0' ++ digits)

/-- A number in lower-case digits, at least `width` of them. -/
def lower (width n : Nat) : String :=
  padded (Nat.toDigits 16 n) width

/-- A number in upper-case digits, at least `width` of them. -/
def upper (width n : Nat) : String :=
  padded ((Nat.toDigits 16 n).map Char.toUpper) width

/-- A byte in two upper-case digits. -/
def byte (b : UInt8) : String :=
  upper 2 b.toNat

end Famicom.Hex
