/-!
# Checked arithmetic

Words whose sums, differences, shifts and products are refused, not wrapped, when the exact result
does not fit. A refusal is a `Fault`; an operation that cannot be refused has a plain function
instead.

A chain of products is checked as a whole: the value at its end is found exactly, and the products
on the way to it are held against the word size together, because it does not matter which of them
is too large.

## Main definitions

* `Fault` — why a step was refused
* `Fault.message` — its text
* `Checked.add16`, `Checked.mul16`, `Checked.pred16`, `Checked.shiftRight16`, `Checked.add8`,
  `Checked.sub8`, `Checked.pred8` — the refusing operations
* `Checked.afterProducts` — a value that stands at the end of products of 64-bit words

## Main results

* `Checked.add16_of_lt`, `Checked.mul16_of_lt`, `Checked.pred16_of_ne`,
  `Checked.shiftRight16_of_lt`, `Checked.add8_of_lt`, `Checked.sub8_of_le`, `Checked.pred8_of_ne`,
  `Checked.afterProducts_of_lt` — where the exact result fits, the refusing operations agree with
  the plain ones
* `Checked.toNat_pred_of_ne` — the byte before a positive byte, as a number
* `Checked.afterProducts_singleton` — a value that stands at the end of one product
-/

namespace Famicom

/-- Why a step has no result. -/
inductive Fault where
  /-- A sum is above the largest word. -/
  | addOverflow
  /-- A difference is below zero. -/
  | subOverflow
  /-- A product is above the largest word. -/
  | mulOverflow
  /-- A word is shifted right by its width or more. -/
  | shiftRightOverflow
  /-- More room is wanted at once than memory has addresses. -/
  | capacityOverflow
  deriving DecidableEq, Repr

/-- The text of a fault. -/
def Fault.message : Fault → String
  | .addOverflow => "attempt to add with overflow"
  | .subOverflow => "attempt to subtract with overflow"
  | .mulOverflow => "attempt to multiply with overflow"
  | .shiftRightOverflow => "attempt to shift right with overflow"
  | .capacityOverflow => "capacity overflow"

namespace Checked

/-- The sum of two 16-bit words, if it is one. -/
def add16 (a b : UInt16) : Except Fault UInt16 :=
  if a.toNat + b.toNat < 65536 then .ok (a + b) else .error .addOverflow

/-- The product of two 16-bit words, if it is one. -/
def mul16 (a b : UInt16) : Except Fault UInt16 :=
  if a.toNat * b.toNat < 65536 then .ok (a * b) else .error .mulOverflow

/-- The 16-bit word before a positive one. -/
def pred16 (a : UInt16) : Except Fault UInt16 :=
  if a = 0 then .error .subOverflow else .ok (a - 1)

/-- A 16-bit word shifted right by fewer than 16 places. -/
def shiftRight16 (a : UInt16) (places : UInt8) : Except Fault UInt16 :=
  if places < 16 then .ok (a >>> places.toUInt16) else .error .shiftRightOverflow

/-- The sum of two bytes, if it is one. -/
def add8 (a b : UInt8) : Except Fault UInt8 :=
  if a.toNat + b.toNat < 256 then .ok (a + b) else .error .addOverflow

/-- The difference of two bytes, if it is not below zero. -/
def sub8 (a b : UInt8) : Except Fault UInt8 :=
  if b ≤ a then .ok (a - b) else .error .subOverflow

/-- The byte before a positive byte. -/
def pred8 (a : UInt8) : Except Fault UInt8 :=
  if a = 0 then .error .subOverflow else .ok (a - 1)

/-- The number of 64-bit words. -/
def words64 : Nat :=
  18446744073709551616

/-- A value, if all products on the way to it are 64-bit words. -/
def afterProducts {α : Type} (products : List Nat) (value : α) : Except Fault α :=
  if ∀ p ∈ products, p < words64 then .ok value else .error .mulOverflow

theorem add16_of_lt {a b : UInt16} (h : a.toNat + b.toNat < 65536) : add16 a b = .ok (a + b) :=
  if_pos h

theorem mul16_of_lt {a b : UInt16} (h : a.toNat * b.toNat < 65536) : mul16 a b = .ok (a * b) :=
  if_pos h

theorem pred16_of_ne {a : UInt16} (h : a ≠ 0) : pred16 a = .ok (a - 1) :=
  if_neg h

theorem shiftRight16_of_lt {a : UInt16} {places : UInt8} (h : places < 16) :
    shiftRight16 a places = .ok (a >>> places.toUInt16) :=
  if_pos h

theorem add8_of_lt {a b : UInt8} (h : a.toNat + b.toNat < 256) : add8 a b = .ok (a + b) :=
  if_pos h

theorem sub8_of_le {a b : UInt8} (h : b ≤ a) : sub8 a b = .ok (a - b) :=
  if_pos h

theorem pred8_of_ne {a : UInt8} (h : a ≠ 0) : pred8 a = .ok (a - 1) :=
  if_neg h

/-- The byte before a positive byte, as a number. -/
theorem toNat_pred_of_ne {a : UInt8} (h : a ≠ 0) : (a - 1).toNat + 1 = a.toNat := by
  have positive : 1 ≤ a.toNat := Nat.one_le_iff_ne_zero.mpr fun zero => h (UInt8.toNat_inj.mp zero)
  have pred : (a - 1).toNat = a.toNat - 1 :=
    UInt8.toNat_sub_of_le _ _ (UInt8.le_iff_toNat_le.mpr positive)
  omega

theorem afterProducts_of_lt {α : Type} {products : List Nat} (value : α)
    (h : ∀ p ∈ products, p < words64) : afterProducts products value = .ok value :=
  if_pos h

theorem afterProducts_singleton {α : Type} (product : Nat) (value : α) :
    afterProducts [product] value =
      if words64 ≤ product then .error .mulOverflow else .ok value := by
  by_cases large : words64 ≤ product
  · simp [afterProducts, large, Nat.not_lt.mpr large]
  · simp [afterProducts, large, Nat.not_le.mp large]

end Checked

end Famicom
