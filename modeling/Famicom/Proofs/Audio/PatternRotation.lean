import Mathlib.Algebra.Group.Nat.Defs
import Mathlib.Data.Set.Finite.Basic
import Famicom.Audio.Sequencer

/-!
# Rotations of patterns

Both rotations move the low bits of a pattern down by one place and bring in a new bit at the top.
For a duty pattern of eight bits that is the bit that falls out, so that eight moves bring every
pattern back. For a feedback register of fifteen bits it is the sum of the bit that falls out and
the one at the tap. Whatever tap of these is chosen, no two registers move to the same one, and none
but zero stays as it is.

## Main definitions

* `Rotation.movedDown` — low bits moved down by one place, with a new bit at their top
* `Rotation.fedBack` — a feedback register after one move
* `Rotation.registers` — the feedback registers
* `Rotation.isDefined`, `Rotation.moved` — a rotation as a function of the pattern

## Main results

* `Rotation.apply_eq` — when a pattern can be moved
* `Rotation.testBit_turn`, `Rotation.testBit_fedBack` — both rotations, bit by bit
* `Rotation.iterate_turn_add_mul_eight` — eight moves bring a duty pattern back
* `Rotation.bijOn_fedBack` — the feedback register can be moved back
* `Rotation.fedBack_ne_self` — it never stands still
-/

namespace Famicom.Audio.Rotation

/-- The bits of a word below a top one, with it, moved down by one place, and a new top bit. -/
def movedDown (top : Nat) (new : Bool) (x : Nat) : Nat :=
  2 ^ top * new.toNat + x / 2 % 2 ^ top

theorem rest_lt (top x : Nat) : x / 2 % 2 ^ top < 2 ^ top :=
  Nat.mod_lt _ (Nat.two_pow_pos top)

theorem movedDown_eq_or (top : Nat) (new : Bool) (x : Nat) :
    movedDown top new x = 2 ^ top * new.toNat ||| x / 2 % 2 ^ top :=
  Nat.two_pow_add_eq_or_of_lt (rest_lt top x) _

theorem testBit_movedDown (top : Nat) (new : Bool) (x i : Nat) :
    (movedDown top new x).testBit i =
      if i = top then new else decide (i < top) && x.testBit (i + 1) := by
  rw [movedDown, Nat.testBit_two_pow_mul_add _ (rest_lt top x), Nat.testBit_mod_two_pow,
    Nat.testBit_bool_toNat, Nat.testBit_succ]
  rcases Nat.lt_trichotomy i top with below | rfl | above
  · simp [below, Nat.ne_of_lt below]
  · simp
  · have beyond : i - top ≠ 0 := Nat.sub_ne_zero_of_lt above
    simp [Nat.not_lt.mpr (Nat.le_of_lt above), Nat.ne_of_gt above, beyond]

theorem movedDown_lt (top : Nat) (new : Bool) (x : Nat) :
    movedDown top new x < 2 ^ (top + 1) := by
  apply Nat.lt_pow_two_of_testBit
  intro i above
  have apart : i ≠ top := by omega
  have beyond : ¬ i < top := by omega
  simp [testBit_movedDown, apart, beyond]

/-! ### Duty patterns -/

theorem toNat_turn (s : UInt16) : (turn s).toNat = movedDown 7 (s.toNat.testBit 0) s.toNat := by
  have fallen : ((s &&& 0x0001) <<< 7).toNat = 2 ^ 7 * (s.toNat.testBit 0).toNat := by
    have bit : (s &&& 0x0001).toNat = (s.toNat.testBit 0).toNat := by
      rw [Nat.toNat_testBit, UInt16.toNat_and]
      simp
    rw [UInt16.toNat_shiftLeft, bit]
    cases s.toNat.testBit 0 <;> rfl
  have rest : ((s &&& 0x00FE) >>> 1).toNat = s.toNat / 2 % 2 ^ 7 := by
    have halved : (s.toNat &&& 254) / 2 = s.toNat / 2 &&& 127 := Nat.and_div_two_pow (n := 1)
    rw [UInt16.toNat_shiftRight, UInt16.toNat_and]
    exact halved.trans (Nat.and_two_pow_sub_one_eq_mod (s.toNat / 2) 7)
  rw [movedDown_eq_or, turn, UInt16.toNat_or, fallen, rest]

/-- Each bit of a duty pattern comes from the place above it, and the top one from the lowest. -/
theorem testBit_turn (s : UInt16) (i : Nat) :
    (turn s).toNat.testBit i = (decide (i < 8) && s.toNat.testBit ((i + 1) % 8)) := by
  rw [toNat_turn, testBit_movedDown]
  by_cases top : i = 7
  · simp [top]
  · by_cases below : i < 7
    · have place : (i + 1) % 8 = i + 1 := Nat.mod_eq_of_lt (by omega)
      have inside : i < 8 := by omega
      simp [top, below, place, inside]
    · have outside : ¬ i < 8 := by omega
      simp [top, below, outside]

theorem testBit_iterate_turn {s : UInt16} (duty : s.toNat < 2 ^ 8) (k i : Nat) :
    (turn^[k] s).toNat.testBit i = (decide (i < 8) && s.toNat.testBit ((i + k) % 8)) := by
  induction k generalizing i with
  | zero =>
    by_cases inside : i < 8
    · simp [inside, Nat.mod_eq_of_lt inside]
    · have low : s.toNat < 2 ^ i := Nat.lt_of_lt_of_le duty (Nat.pow_le_pow_right Nat.two_pos
        (Nat.not_lt.mp inside))
      simp [inside, Nat.testBit_lt_two_pow low]
  | succ k ih =>
    have place : ((i + 1) % 8 + k) % 8 = (i + (k + 1)) % 8 := by omega
    have inside : (i + 1) % 8 < 8 := Nat.mod_lt _ (by decide)
    rw [Function.iterate_succ_apply', testBit_turn, ih, place]
    simp [inside]

theorem iterate_turn_eight {s : UInt16} (duty : s.toNat < 2 ^ 8) : turn^[8] s = s := by
  apply UInt16.toNat_inj.mp
  apply Nat.eq_of_testBit_eq
  intro i
  have around := testBit_iterate_turn duty 8 i
  have unmoved := testBit_iterate_turn duty 0 i
  rw [Nat.add_mod_right] at around
  exact around.trans unmoved.symm

/-- Eight moves bring a duty pattern back, and so do multiples of them. -/
theorem iterate_turn_add_mul_eight {s : UInt16} (duty : s.toNat < 2 ^ 8) (k j : Nat) :
    turn^[k + 8 * j] s = turn^[k] s := by
  have back : turn^[8 * j] s = s := by
    rw [Function.iterate_mul]
    exact Function.iterate_fixed (iterate_turn_eight duty) j
  rw [Function.iterate_add_apply, back]

/-! ### Feedback registers -/

/-- A feedback register after one move. -/
def fedBack (tap : UInt8) (s : UInt16) : UInt16 :=
  shiftIn s ((s ^^^ (s >>> tap.toUInt16)) &&& 0x0001)

theorem apply_feedback {tap : UInt8} (inside : tap < 16) (s : UInt16) :
    (feedback tap).apply s = .ok (fedBack tap s) := by
  rw [apply, Checked.shiftRight16_of_lt inside]
  rfl

theorem toNat_fedBack {tap : UInt8} (inside : tap < 16) (s : UInt16) :
    (fedBack tap s).toNat =
      movedDown 14 (s.toNat.testBit 0 ^^ s.toNat.testBit tap.toNat) s.toNat := by
  have places : tap.toUInt16.toNat % 16 = tap.toNat := Nat.mod_eq_of_lt inside
  have sum : ((s ^^^ (s >>> tap.toUInt16)) &&& 0x0001).toNat =
      (s.toNat.testBit 0 ^^ s.toNat.testBit tap.toNat).toNat := by
    have bit := Nat.toNat_testBit (s.toNat ^^^ s.toNat >>> tap.toNat) 0
    rw [Nat.testBit_xor, Nat.testBit_shiftRight] at bit
    rw [UInt16.toNat_and, UInt16.toNat_xor, UInt16.toNat_shiftRight, places]
    simpa using bit.symm
  have fed : (((s ^^^ (s >>> tap.toUInt16)) &&& 0x0001) <<< 14).toNat =
      2 ^ 14 * (s.toNat.testBit 0 ^^ s.toNat.testBit tap.toNat).toNat := by
    rw [UInt16.toNat_shiftLeft, sum]
    cases s.toNat.testBit 0 ^^ s.toNat.testBit tap.toNat <;> rfl
  have rest : ((s >>> 1) &&& 0x3FFF).toNat = s.toNat / 2 % 2 ^ 14 := by
    simpa [Nat.shiftRight_eq_div_pow] using Nat.and_two_pow_sub_one_eq_mod (s.toNat / 2) 14
  rw [movedDown_eq_or, Nat.or_comm, fedBack, shiftIn, UInt16.toNat_or, fed, rest]

/-- Each bit of a feedback register comes from the place above it, and the top one from the lowest
and the one at the tap. -/
theorem testBit_fedBack {tap : UInt8} (inside : tap < 16) (s : UInt16) (i : Nat) :
    (fedBack tap s).toNat.testBit i =
      if i = 14 then s.toNat.testBit 0 ^^ s.toNat.testBit tap.toNat
      else decide (i < 14) && s.toNat.testBit (i + 1) := by
  rw [toNat_fedBack inside, testBit_movedDown]

/-- The feedback registers. -/
def registers : Set UInt16 :=
  {s | s.toNat ≤ 0x7FFF}

section Register

variable {tap : UInt8} {s s' : UInt16}

theorem mem_registers_iff : s ∈ registers ↔ s.toNat < 2 ^ 15 :=
  Nat.lt_succ_iff.symm

theorem testBit_of_mem_registers (register : s ∈ registers) {i : Nat} (above : 15 ≤ i) :
    s.toNat.testBit i = false :=
  Nat.testBit_lt_two_pow (Nat.lt_of_lt_of_le (mem_registers_iff.mp register)
    (Nat.pow_le_pow_right Nat.two_pos above))

theorem fedBack_mem (inside : tap < 16) (s : UInt16) : fedBack tap s ∈ registers :=
  mem_registers_iff.mpr (toNat_fedBack inside s ▸ movedDown_lt ..)

theorem fedBack_zero (inside : tap < 16) : fedBack tap 0 = 0 := by
  apply UInt16.toNat_inj.mp
  rw [toNat_fedBack inside]
  simp [movedDown]

/-- No two registers move to the same one: all their bits but the lowest are moved down, and the
lowest can be told from the new one and the tap. -/
theorem fedBack_injOn (inside : tap < 16) (positive : 0 < tap) :
    Set.InjOn (fedBack tap) registers := by
  intro s register s' register' same
  have bits (i : Nat) := congrArg (fun moved : UInt16 => moved.toNat.testBit i) same
  simp only [testBit_fedBack inside] at bits
  have upper (i : Nat) : s.toNat.testBit (i + 1) = s'.toNat.testBit (i + 1) := by
    by_cases below : i < 14
    · simpa [below, Nat.ne_of_lt below] using bits i
    · have above : 15 ≤ i + 1 := by omega
      rw [testBit_of_mem_registers register above, testBit_of_mem_registers register' above]
  have tapped : s.toNat.testBit tap.toNat = s'.toNat.testBit tap.toNat := by
    obtain ⟨place, eq⟩ := Nat.exists_eq_succ_of_ne_zero (Nat.ne_of_gt positive)
    rw [show tap.toNat = place + 1 from eq]
    exact upper place
  have lowest : s.toNat.testBit 0 = s'.toNat.testBit 0 := by
    have new := bits 14
    rw [if_pos rfl, if_pos rfl, tapped] at new
    exact Bool.xor_left_inj.mp new
  apply UInt16.toNat_inj.mp
  apply Nat.eq_of_testBit_eq
  intro i
  cases i with
  | zero => exact lowest
  | succ i => exact upper i

/-- A register that is not zero does not move to zero. -/
theorem fedBack_ne_zero (inside : tap < 16) (positive : 0 < tap) (register : s ∈ registers)
    (lit : s ≠ 0) : fedBack tap s ≠ 0 := by
  intro dark
  have zero : (0 : UInt16) ∈ registers := Nat.zero_le _
  exact lit (fedBack_injOn inside positive register zero (dark.trans (fedBack_zero inside).symm))

/-- A register that is not zero does not stand still: all its bits would be the same, and the new
one, the sum of two of them, would be zero. -/
theorem fedBack_ne_self (inside : tap < 15) (register : s ∈ registers) (lit : s ≠ 0) :
    fedBack tap s ≠ s := by
  intro still
  have tap_le : tap.toNat ≤ 14 := Nat.le_of_lt_succ inside
  have word : tap < 16 := Nat.lt_succ_of_lt inside
  have bits := testBit_fedBack word s
  rw [still] at bits
  have alike (i : Nat) (below : i ≤ 14) : s.toNat.testBit i = s.toNat.testBit 0 := by
    induction i with
    | zero => rfl
    | succ i ih =>
      have under : i < 14 := by omega
      have moved := bits i
      rw [if_neg (Nat.ne_of_lt under), decide_eq_true under, Bool.true_and] at moved
      exact moved.symm.trans (ih (Nat.le_of_lt under))
  have dark (i : Nat) (below : i ≤ 14) : s.toNat.testBit i = false := by
    have new := bits 14
    rw [if_pos rfl, alike tap.toNat tap_le, Bool.xor_self] at new
    rw [alike i below, ← alike 14 (Nat.le_refl _), new]
  apply lit
  apply UInt16.toNat_inj.mp
  apply Nat.eq_of_testBit_eq
  intro i
  rw [UInt16.toNat_zero, Nat.zero_testBit]
  by_cases below : i ≤ 14
  · exact dark i below
  · exact testBit_of_mem_registers register (by omega)

end Register

/-! ### Both rotations -/

/-- A tap beyond the word names no bit. -/
def isDefined : Rotation → Bool
  | .duty => true
  | .feedback tap => tap < 16

/-- A pattern after one move. -/
def moved : Rotation → UInt16 → UInt16
  | .duty => turn
  | .feedback tap => fedBack tap

theorem apply_eq (rotation : Rotation) (s : UInt16) :
    rotation.apply s =
      if rotation.isDefined then .ok (rotation.moved s) else .error .shiftRightOverflow := by
  cases rotation with
  | duty => rfl
  | feedback tap =>
    by_cases inside : tap < 16
    · rw [apply_feedback inside, isDefined, if_pos (decide_eq_true inside)]
      rfl
    · rw [apply, Checked.shiftRight16, if_neg inside, isDefined, decide_eq_false inside]
      rfl

end Famicom.Audio.Rotation
