import Famicom.Proofs.Cartridge.PowerOn
import Famicom.Proofs.Cartridge.RegisterBits

/-!
# Windows of an MMC1 board

An MMC1 board finds its windows when a register changes, and only those that the modes then put to
use. The others go out of date, but a change of mode is a change of a register, which finds them
again before an address is mapped through them. So where an address leads can be read off the
registers alone, whatever was written to them before and in which order.

## Main definitions

* `Mmc1.Registers.prgTarget`, `Mmc1.Registers.chrTarget` — where registers lead addresses
* `Mmc1.IsCurrent` — the windows in use are those that the registers stand for

## Main results

* `Mmc1.IsCurrent.exists_apply` — whatever is done to a board keeps it current
* `Mmc1.IsCurrent.prgOffset_eq`, `Mmc1.IsCurrent.chrOffset_eq` — the offsets of a board that is
  current
* `Mmc1.targets_of_registers` — every address on a board after any run
-/

namespace Famicom.Board.Mmc1

/-! ### Where registers lead -/

namespace Registers

variable (r : Registers) (banks : BankCounts)

/-- The first bank of the half that a board of more than 16 banks shows, which bit 4 of the first
pattern register chooses. -/
def outer : Nat :=
  if 16 < banks.prg then r.chr0.toNat &&& 16 else 0

/-- Bits 3 and 2 of the control register. -/
def prgMode : Nat :=
  r.control.toNat / 4 % 4

/-- The bank of 32 KiB in modes 0 and 1. -/
def wholeBank : Nat :=
  (r.outer banks / 2 ||| r.prg.toNat / 2) % max (banks.prg / 2) 1

/-- The bank of 16 KiB at $8000 in modes 2 and 3. -/
def lowBank : Nat :=
  if r.prgMode = 2 then r.outer banks % banks.prg
  else (r.outer banks ||| r.prg.toNat) % banks.prg

/-- The bank of 16 KiB at $C000 in modes 2 and 3. Mode 3 shows the last one there, or the last one
of the half. -/
def highBank : Nat :=
  if r.prgMode = 2 then (r.outer banks ||| r.prg.toNat) % banks.prg
  else if 16 < banks.prg then (r.outer banks ||| 15) % banks.prg
  else banks.prg - 1

/-- The offset in program memory of an address in the upper half of memory. -/
def prgTarget (address : UInt16) : Nat :=
  if r.prgMode < 2 then r.wholeBank banks * 32768 + address.toNat % 32768
  else if address < 0xC000 then r.lowBank banks * 16384 + address.toNat % 16384
  else r.highBank banks * 16384 + address.toNat % 16384

/-- The offset in pattern memory of an address. Bit 4 of the control register splits pattern ROM
into two windows of 4 KiB. -/
def chrTarget (address : UInt16) : Nat :=
  if banks.chr = 0 then address.toNat
  else if r.control.toNat.testBit 4 then
    let bank := if address < 0x1000 then r.chr0.toNat else r.chr1.toNat
    bank % (2 * banks.chr) * 4096 + address.toNat % 4096
  else r.chr0.toNat / 2 % banks.chr * 8192 + address.toNat % 8192

/-- Registers take five bits, and the last of them four. -/
structure IsProgrammed : Prop where
  chr0 : r.chr0.toNat < 32
  chr1 : r.chr1.toNat < 32
  prg : r.prg.toNat < 16

theorem IsProgrammed.initial : ({} : Registers).IsProgrammed :=
  ⟨by decide, by decide, by decide⟩

variable {r}

theorem IsProgrammed.withControl (h : r.IsProgrammed) (control : UInt8) :
    { r with control }.IsProgrammed :=
  ⟨h.chr0, h.chr1, h.prg⟩

theorem IsProgrammed.put (h : r.IsProgrammed) (address : UInt16) {value : UInt8}
    (small : value.toNat < 32) : (r.put address value).IsProgrammed := by
  unfold Registers.put
  split_ifs
  · exact h.withControl value
  · exact ⟨small, h.chr1, h.prg⟩
  · exact ⟨h.chr0, small, h.prg⟩
  · refine ⟨h.chr0, h.chr1, ?_⟩
    have four_bits : (value &&& 0x0F).toNat = value.toNat % 16 := toNat_and_lowest 4 rfl value
    simp only [four_bits]
    exact Nat.mod_lt _ (by decide)

variable (r)

theorem splitsChr_eq : r.splitsChr = r.control.toNat.testBit 4 :=
  and_bne_zero 4 rfl r.control

/-- The modes, with the bits that choose them. -/
theorem prgMode_cases :
    (r.prgMode < 2 ∧ (r.control >>> 2 &&& 0x03 = 0 ∨ r.control >>> 2 &&& 0x03 = 1)) ∨
      (r.prgMode = 2 ∧ r.control >>> 2 &&& 0x03 = 2) ∨
      (r.prgMode = 3 ∧ r.control >>> 2 &&& 0x03 = 3) := by
  have bits : (r.control >>> 2 &&& 0x03).toNat = r.prgMode := by
    rw [toNat_and_lowest 2 rfl, UInt8.toNat_shiftRight, Nat.shiftRight_eq_div_pow]
    rfl
  have below : r.prgMode < 4 := Nat.mod_lt _ (by decide)
  simp only [← UInt8.toNat_inj, bits, UInt8.reduceToNat]
  omega

theorem joinsPrg_eq : r.joinsPrg = decide (r.prgMode < 2) := by
  rw [Bool.eq_iff_iff, r.joinsPrg_iff, decide_eq_true_eq]
  obtain ⟨mode, bits | bits⟩ | ⟨mode, bits⟩ | ⟨mode, bits⟩ := r.prgMode_cases <;>
    simp [bits, mode]

/-- The low bits of the program register are all that it has. -/
theorem IsProgrammed.inner {r : Registers} (h : r.IsProgrammed) :
    (r.prg &&& 0x0F).toNat = r.prg.toNat ∧ ((r.prg &&& 0x0E) >>> 1).toNat = r.prg.toNat / 2 := by
  have four_bits := h.prg
  rw [toNat_and_lowest 4 rfl, toNat_and_halved 3 rfl]
  omega

/-- So it is with the pattern registers. -/
theorem IsProgrammed.patterns {r : Registers} (h : r.IsProgrammed) :
    (r.chr0 &&& 0x1F).toNat = r.chr0.toNat ∧ (r.chr1 &&& 0x1F).toNat = r.chr1.toNat ∧
      ((r.chr0 &&& 0x1E) >>> 1).toNat = r.chr0.toNat / 2 := by
  have five_bits := h.chr0
  have five_bits' := h.chr1
  rw [toNat_and_lowest 5 rfl, toNat_and_lowest 5 rfl,
    toNat_and_halved 4 rfl]
  omega

end Registers

/-! ### Windows that are found -/

section Found

variable {r : Registers} (h : r.IsProgrammed) (banks : BankCounts) (w : Windows)
include h

theorem Windows.prgWhole_update (joined : r.prgMode < 2) :
    (w.update banks r).prgWhole % max (banks.prg / 2) 1 = r.wholeBank banks := by
  obtain ⟨-, bits | bits⟩ | ⟨mode, -⟩ | ⟨mode, -⟩ := r.prgMode_cases
  · simp [update, bits, Registers.wholeBank, Registers.outer, h.inner, Nat.shiftRight_eq_div_pow]
  · simp [update, bits, Registers.wholeBank, Registers.outer, h.inner, Nat.shiftRight_eq_div_pow]
  · omega
  · omega

theorem Windows.prgLow_update (parted : ¬ r.prgMode < 2) :
    (w.update banks r).prgLow % banks.prg = r.lowBank banks := by
  obtain ⟨mode, -⟩ | ⟨mode, bits⟩ | ⟨mode, bits⟩ := r.prgMode_cases
  · exact absurd mode parted
  · simp [update, bits, Registers.lowBank, mode, Registers.outer]
  · simp [update, bits, Registers.lowBank, mode, Registers.outer, h.inner]

theorem Windows.prgHigh_update (parted : ¬ r.prgMode < 2) :
    (w.update banks r).prgHigh % banks.prg = r.highBank banks := by
  obtain ⟨mode, -⟩ | ⟨mode, bits⟩ | ⟨mode, bits⟩ := r.prgMode_cases
  · exact absurd mode parted
  · simp [update, bits, Registers.highBank, mode, Registers.outer, h.inner]
  · -- The last bank is there, so that it needs no remainder.
    have last : (banks.prg - 1) % banks.prg = banks.prg - 1 :=
      Nat.mod_eq_of_lt (Nat.sub_one_lt_of_lt banks.prg_pos)
    by_cases large : 16 < banks.prg <;>
      simp [update, bits, Registers.highBank, mode, Registers.outer, large, last]

theorem Windows.chr_update :
    if r.control.toNat.testBit 4 then
      (w.update banks r).chrLow = r.chr0.toNat ∧ (w.update banks r).chrHigh = r.chr1.toNat
    else (w.update banks r).chrWhole = r.chr0.toNat / 2 := by
  obtain ⟨-, bits | bits⟩ | ⟨-, bits⟩ | ⟨-, bits⟩ := r.prgMode_cases <;>
    cases split : r.control.toNat.testBit 4 <;>
      simp [update, bits, Registers.splitsChr_eq, split, h.patterns]

end Found

/-! ### Boards that are current -/

/-- The windows in use are those that are found anew for the registers, which hold what can be
programmed. -/
structure IsCurrent (b : Mmc1) : Prop where
  registers : b.registers.IsProgrammed
  windows : b.windows.AgreeOn b.registers (Windows.update {} b.banks b.registers)

namespace IsCurrent

variable {b : Mmc1}

/-- Where an address of program memory leads on a board that is current. -/
theorem prgOffset_eq (h : b.IsCurrent) (address : UInt16) :
    b.prgOffset address = b.registers.prgTarget b.banks address := by
  rw [← h.windows.prgOffset]
  unfold prgOffset Registers.prgTarget
  simp only [Registers.joinsPrg_eq, decide_eq_true_eq]
  split
  · rename_i joined
    rw [Windows.prgWhole_update h.registers b.banks {} joined]
    rfl
  · rename_i parted
    rw [Windows.prgLow_update h.registers b.banks {} parted,
      Windows.prgHigh_update h.registers b.banks {} parted]
    rfl

/-- Where an address of pattern memory leads on a board that is current. -/
theorem chrOffset_eq (h : b.IsCurrent) (address : UInt16) :
    b.chrOffset address = b.registers.chrTarget b.banks address := by
  rw [← h.windows.chrOffset]
  have found := Windows.chr_update h.registers b.banks {}
  unfold chrOffset Registers.chrTarget
  rw [Registers.splitsChr_eq]
  cases split : b.registers.control.toNat.testBit 4 <;>
    simp_all [within, Nat.mul_comm 2]

theorem updateWindows (h : b.registers.IsProgrammed) : b.updateWindows.IsCurrent :=
  ⟨h, .update b.banks b.registers b.windows {}⟩

theorem initial (banks : BankCounts) : (Mmc1.initial banks).IsCurrent :=
  updateWindows .initial

theorem reset (b : Mmc1) : b.reset.IsCurrent :=
  updateWindows .initial

/-- A value that the shift register completes has five bits. -/
theorem toNat_lt_of_push {shift shift' : ShiftRegister} {data value : UInt8}
    (pushed : shift.push data = (some value, shift')) : value.toNat < 32 := by
  unfold ShiftRegister.push at pushed
  dsimp only at pushed
  split at pushed
  · cases pushed
  · obtain ⟨rfl, -⟩ := Prod.mk.inj pushed |>.imp Option.some.inj id
    rw [toNat_and_lowest 5 rfl]
    exact Nat.mod_lt _ (by decide)

theorem writeBit (h : b.IsCurrent) (address : UInt16) (data : UInt8) (step : UInt64) :
    (b.writeBit address data step).IsCurrent := by
  unfold Mmc1.writeBit
  split
  · exact updateWindows (h.registers.withControl _)
  · split
    · exact h
    · dsimp only
      split
      · rename_i value shift pushed
        have small : value.toNat < 32 := toNat_lt_of_push pushed
        cases b.serialGate <;> exact updateWindows (h.registers.put address small)
      · cases b.serialGate <;> exact ⟨h.registers, h.windows⟩

/-- Whatever is done to a board that is current, it stays so. -/
theorem exists_apply (h : b.IsCurrent) (op : Operation) :
    ∃ b', Board.apply (.mmc1 b) op = .mmc1 b' ∧ b'.banks = b.banks ∧ b'.IsCurrent := by
  cases op with
  | cpuWrite address data step =>
    simp only [Board.apply, Board.cpuWrite, Mmc1.cpuWrite]
    split_ifs
    · exact ⟨_, rfl, b.banks_writeBit address data step, h.writeBit address data step⟩
    · exact ⟨_, rfl, rfl, h.registers, h.windows⟩
    · exact ⟨b, rfl, rfl, h⟩
  | chrRead address =>
    refine ⟨b, ?_, rfl, h⟩
    simp only [Board.apply, Board.chrRead]
    split <;> rfl
  | reset => exact ⟨b.reset, rfl, rfl, .reset b⟩
  | setGate enabled => exact ⟨_, rfl, rfl, h.registers, h.windows⟩
  | loadRam image => exact ⟨_, rfl, rfl, h.registers, h.windows⟩
  | cpuRead _ | chrWrite _ | scanline | clearIrq => exact ⟨b, rfl, rfl, h⟩

/-- So it is after a run. -/
theorem exists_run (h : b.IsCurrent) (ops : List Operation) :
    ∃ b', ops.foldl Board.apply (.mmc1 b) = .mmc1 b' ∧ b'.banks = b.banks ∧ b'.IsCurrent := by
  induction ops generalizing b with
  | nil => exact ⟨b, rfl, rfl, h⟩
  | cons op ops ih =>
    obtain ⟨b', moved, banks, now⟩ := h.exists_apply op
    obtain ⟨b'', run, banks', still⟩ := ih now
    exact ⟨b'', by rw [List.foldl_cons, moved, run], banks'.trans banks, still⟩

end IsCurrent

/-- **No window in use is out of date.** Whatever was done to an MMC1 board since power-on, where it
maps an address is a function of its four registers and its memory alone. Accesses of the processor
and writes of the picture unit are never refused; a read of the picture unit is refused only where
the number of banks of 4 KiB, by which it wraps, is too large for a word. -/
theorem targets_of_registers (counts : BankCounts) (ops : List Operation) :
    ∃ b : Mmc1, ops.foldl Board.apply (.mmc1 (.initial counts)) = .mmc1 b ∧
      (∀ address : UInt16, 0x8000 ≤ address →
        (Board.mmc1 b).cpuReadChecked address =
          .ok (some (.prg (b.registers.prgTarget counts address)))) ∧
      ∀ address : UInt16, address < chrEnd →
        (Board.mmc1 b).chrReadChecked address =
            (if b.registers.control.toNat.testBit 4 ∧ Checked.words64 ≤ 2 * counts.chr then
              .error .mulOverflow
            else .ok (some (b.registers.chrTarget counts address), .mmc1 b)) ∧
          (Board.mmc1 b).chrWrite address =
            if counts.chr = 0 then some address.toNat else none := by
  obtain ⟨b, run, rfl, current⟩ := (IsCurrent.initial counts).exists_run ops
  refine ⟨b, run, ?_, ?_⟩
  · intro address upper
    simp [cpuReadChecked, cpuReadProducts, Checked.afterProducts, Board.cpuRead, Mmc1.cpuRead,
      upper, current.prgOffset_eq]
  · intro address pattern
    have inside : ¬ chrEnd ≤ address := UInt16.not_le.mpr pattern
    refine ⟨?_, ?_⟩
    · simp only [chrReadChecked, chrReadProducts, chrRead, if_neg inside, Registers.splitsChr_eq,
        current.chrOffset_eq]
      cases split : b.registers.control.toNat.testBit 4
      · simp [Checked.afterProducts]
      · simp [Checked.afterProducts_singleton, Nat.mul_comm 2]
    · by_cases ram : b.banks.chr = 0 <;>
        simp [chrWrite, inside, Board.banks, ram, current.chrOffset_eq, Registers.chrTarget]

/-- The registers of an MMC1 board. -/
def registers? : Board → Option Registers
  | .mmc1 b => some b.registers
  | _ => none

/-- Registers that are written in mode 0 show their banks when a write with bit 7 set goes on to
mode 3, although the windows of 16 KiB were out of use until then. -/
theorem targets_of_registers_of_switch :
    let counts : BankCounts := ⟨32, 2, by decide⟩
    let ops := serialWrites 0x8000 0x00 ++ serialWrites 0xA000 0x15 ++ serialWrites 0xE000 0x0B ++
      [.cpuWrite 0x8000 0x80 0]
    (0x8000 : UInt16) ≤ 0x9234 ∧ (0x8000 : UInt16) ≤ 0xC001 ∧ (0x1005 : UInt16) < chrEnd ∧
      ∃ b : Mmc1, ops.foldl Board.apply (.mmc1 (.initial counts)) = .mmc1 b ∧
        (Board.mmc1 b).cpuReadChecked 0x9234 = .ok (some (.prg (27 * 16384 + 0x1234))) ∧
        (Board.mmc1 b).cpuReadChecked 0xC001 = .ok (some (.prg (31 * 16384 + 1))) ∧
        (Board.mmc1 b).chrReadChecked 0x1005 = .ok (some 0x1005, .mmc1 b) := by
  intro counts ops
  obtain ⟨b, run, programs, patterns⟩ := targets_of_registers counts ops
  have written : registers? (ops.foldl Board.apply (.mmc1 (.initial counts))) =
      some ⟨0x0C, 0x15, 0x00, 0x0B⟩ := by decide
  have registers : b.registers = ⟨0x0C, 0x15, 0x00, 0x0B⟩ :=
    Option.some.inj ((congrArg registers? run).symm.trans written)
  have low : b.registers.prgTarget counts 0x9234 = 27 * 16384 + 0x1234 := by
    rw [registers]
    decide
  have high : b.registers.prgTarget counts 0xC001 = 31 * 16384 + 1 := by
    rw [registers]
    decide
  have pattern : b.registers.chrTarget counts 0x1005 = 0x1005 := by
    rw [registers]
    decide
  refine ⟨by decide, by decide, by decide, b, run, ?_, ?_, ?_⟩
  · rw [programs 0x9234 (by decide), low]
  · rw [programs 0xC001 (by decide), high]
  · have joined : b.registers.control.toNat.testBit 4 = false := by
      rw [registers]
      decide
    rw [(patterns 0x1005 (by decide)).1, pattern, joined, if_neg fun refused => nomatch refused.1]

end Famicom.Board.Mmc1
