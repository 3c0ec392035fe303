import Mathlib.Data.Nat.Bitwise

/-!
# Bits of registers

Boards read their registers through masks. A mask of one bit asks whether that bit is set, and a
mask of the lowest bits takes a remainder by a power of two. Which register an access means is told
by the eighth of the address space it is in, and on some boards by its parity.

## Main results

* `Board.and_bne_zero`, `Board.and_beq_zero` — masks of one bit
* `Board.toNat_and_lowest`, `Board.toNat_and_halved` — masks of the lowest bits, and of those above
  the lowest one
* `Board.eighth_cases` — the eighths in the upper half of memory
-/

namespace Famicom.Board

theorem and_two_pow_eq_zero_iff (n place : Nat) :
    n &&& 2 ^ place = 0 ↔ n.testBit place = false := by
  rw [Nat.and_two_pow]
  cases n.testBit place <;> simp

/-- A mask of one bit asks whether that bit is set. -/
theorem and_bne_zero (place : Nat) {mask : UInt8} (single : mask.toNat = 2 ^ place)
    (byte : UInt8) : (byte &&& mask != 0) = byte.toNat.testBit place := by
  have zero_iff : byte &&& mask = 0 ↔ byte.toNat.testBit place = false := by
    rw [← UInt8.toNat_inj, UInt8.toNat_and, single]
    exact and_two_pow_eq_zero_iff ..
  cases set : byte.toNat.testBit place <;> simp [zero_iff, set]

/-- A mask of one bit of an address asks whether that bit is clear. -/
theorem and_beq_zero (place : Nat) {mask : UInt16} (single : mask.toNat = 2 ^ place)
    (address : UInt16) : (address &&& mask == 0) = !address.toNat.testBit place := by
  have zero_iff : address &&& mask = 0 ↔ address.toNat.testBit place = false := by
    rw [← UInt16.toNat_inj, UInt16.toNat_and, single]
    exact and_two_pow_eq_zero_iff ..
  cases set : address.toNat.testBit place <;> simp [zero_iff, set]

/-- A mask of the lowest bits takes a remainder. -/
theorem toNat_and_lowest (bits : Nat) {mask : UInt8} (lowest : mask.toNat = 2 ^ bits - 1)
    (byte : UInt8) : (byte &&& mask).toNat = byte.toNat % 2 ^ bits := by
  rw [UInt8.toNat_and, lowest, Nat.and_two_pow_sub_one_eq_mod]

/-- A mask of low bits, which are then moved down by a place, takes a remainder of the half. -/
theorem toNat_and_halved (bits : Nat) {mask : UInt8} (lowest : mask.toNat / 2 = 2 ^ bits - 1)
    (byte : UInt8) : ((byte &&& mask) >>> 1).toNat = byte.toNat / 2 % 2 ^ bits := by
  have halved : (byte.toNat &&& mask.toNat) / 2 = byte.toNat / 2 &&& mask.toNat / 2 :=
    Nat.and_div_two_pow (n := 1)
  have shifted : ((byte &&& mask) >>> 1).toNat = (byte.toNat &&& mask.toNat) / 2 := by
    simp [UInt8.toNat_shiftRight, Nat.shiftRight_eq_div_pow]
  rw [shifted, halved, lowest, Nat.and_two_pow_sub_one_eq_mod]

/-- Even addresses have bit 0 clear. -/
theorem and_one_beq_zero (address : UInt16) :
    (address &&& 0x0001 == 0) = decide (address.toNat % 2 = 0) := by
  rw [and_beq_zero 0 rfl, Nat.testBit_zero]
  obtain even | odd := Nat.mod_two_eq_zero_or_one address.toNat <;> simp [*]

/-- The upper half of memory has four eighths of the address space. -/
theorem eighth_cases {address : UInt16} (upper : 0x8000 ≤ address) :
    address < 0xA000 ∧ address.toNat / 0x2000 = 4 ∨
      ¬ address < 0xA000 ∧
        (address < 0xC000 ∧ address.toNat / 0x2000 = 5 ∨
          ¬ address < 0xC000 ∧
            (address < 0xE000 ∧ address.toNat / 0x2000 = 6 ∨
              ¬ address < 0xE000 ∧ address.toNat / 0x2000 = 7)) := by
  have from_upper : 0x8000 ≤ address.toNat := upper
  have word : address.toNat < 0x10000 := address.toNat_lt
  simp only [UInt16.lt_iff_toNat_lt, UInt16.reduceToNat]
  omega

end Famicom.Board
