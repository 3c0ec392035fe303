import Mathlib.Data.List.Basic
import Famicom.Proofs.Cartridge.ImageFormat
import Famicom.Proofs.Cartridge.Run
import Famicom.Storage.Disk

/-!
# Offsets within the memory of a cartridge

Whatever was programmed, every offset that a board finds lies in the memory that it is made for,
with one exception: an MMC1 board that shows its program memory in a window of 32 KiB but has one
bank of 16 KiB goes past its end in the upper half of the window. On a cartridge, where offsets wrap
around the memory there is, the bank is then seen twice. No other offset wraps.

Boards that find offsets when they are programmed have to keep them in range from then on; the
others choose a bank when they are asked, by a remainder. Counts of banks are arbitrary, and an
access that is refused because a product is too large for a word answers no offset.

## Main definitions

* `Board.overhangs` — where the exception lies
* `Board.InRange` — the offsets that a board keeps lie in its memory
* `Board.IsWithin` — every offset that a board answers lies in its memory
* `Cartridge.WrapsNothing` — no offset wraps but for the exception

## Main results

* `Board.InRange.apply` — what is done to a board keeps its offsets in range
* `Board.InRange.isWithin` — then all that it answers lies in its memory
* `Cartridge.offsets_within_memory` — boards and cartridges after any run
-/

namespace Famicom

namespace Board

/-! ### Banks -/

theorem within_lt (address : UInt16) (size : Nat) (h : 0 < size) : within address size < size :=
  Nat.mod_lt _ h

/-- A bank below their number ends within all of them. -/
theorem bank_end_le {bank count : Nat} (h : bank < count) (size : Nat) :
    bank * size + size ≤ count * size := by
  rw [← Nat.succ_mul]
  exact Nat.mul_le_mul_right size h

/-- An offset in a bank below their number. -/
theorem bank_offset_lt {bank count : Nat} (h : bank < count) (address : UInt16) (size : Nat)
    (some_bytes : 0 < size) : bank * size + within address size < size * count :=
  Nat.lt_of_lt_of_le (Nat.add_lt_add_left (within_lt address size some_bytes) _)
    (Nat.mul_comm size count ▸ bank_end_le h size)

theorem fixedPrg_lt (banks : BankCounts) (address : UInt16) :
    fixedPrg banks address < 0x4000 * banks.prg := by
  have some_banks := banks.prg_pos
  unfold fixedPrg
  split
  · have := within_lt address 0x8000 (by decide)
    omega
  · have := within_lt address 0x4000 (by decide)
    omega

/-! ### Offsets that are kept -/

namespace Mmc3

/-- The windows of a layout lie in the memory of a board. -/
structure Layout.InRange (l : Layout) (banks : BankCounts) : Prop where
  prg : ∀ offset ∈ l.prg, offset + 0x2000 ≤ 0x4000 * banks.prg
  chr : ∀ offset ∈ l.chr, offset + 0x0400 ≤ 0x2000 * max banks.chr 1

variable (banks : BankCounts)

theorem prgCount_pos : 0 < prgCount banks := by
  have := banks.prg_pos
  unfold prgCount
  omega

/-- Program windows at banks that there are. -/
theorem prg_window_end_le {chosen : Vector Nat 4}
    (small : ∀ bank ∈ chosen, bank < prgCount banks) :
    ∀ offset ∈ chosen.map (· * 0x2000), offset + 0x2000 ≤ 0x4000 * banks.prg := by
  intro offset member
  obtain ⟨bank, chosen_bank, rfl⟩ := Vector.mem_map.mp member
  have ends := bank_end_le (small bank chosen_bank) 0x2000
  unfold prgCount at ends
  omega

theorem Layout.InRange.initial : (Layout.initial banks).InRange banks := by
  have some_banks := prgCount_pos banks
  refine ⟨prg_window_end_le banks ?_, ?_⟩
  · intro bank member
    have second : 1 % prgCount banks < prgCount banks := Nat.mod_lt _ some_banks
    simp only [Vector.mem_mk, List.mem_toArray, List.mem_cons, List.not_mem_nil, or_false]
      at member
    omega
  · intro offset member
    obtain rfl := (Vector.mem_replicate.mp member).2
    omega

/-- Program banks are reduced to their number, or are the last ones. -/
theorem Registers.prgBanks_lt (r : Registers) :
    ∀ bank ∈ r.prgBanks banks, bank < prgCount banks := by
  intro bank member
  have some_banks := prgCount_pos banks
  have first : (r.values[6] &&& 0x3F).toNat % prgCount banks < prgCount banks :=
    Nat.mod_lt _ some_banks
  have second : (r.values[7] &&& 0x3F).toNat % prgCount banks < prgCount banks :=
    Nat.mod_lt _ some_banks
  unfold Registers.prgBanks at member
  dsimp only at member
  split at member <;>
    simp only [Vector.mem_mk, List.mem_toArray, List.mem_cons, List.not_mem_nil, or_false]
      at member <;>
    omega

theorem Layout.InRange.ofRegisters (r : Registers) :
    (Layout.ofRegisters banks r).InRange banks := by
  refine ⟨prg_window_end_le banks (r.prgBanks_lt banks), ?_⟩
  intro offset member
  obtain ⟨bank, -, rfl⟩ := Vector.mem_map.mp member
  have some_banks : 0 < chrCount banks := by
    unfold chrCount
    omega
  have ends := bank_end_le (Nat.mod_lt bank.toNat some_banks) 0x0400
  unfold chrCount at ends ⊢
  omega

end Mmc3

/-- The offsets and banks that a board keeps lie in its memory. Boards that are not named keep
numbers of banks as they were written. -/
def InRange : Board → Prop
  | .uxrom b => b.low < b.banks.prg
  | .cnrom b => b.chrBank < max b.banks.chr 1
  | .mmc3 b => b.layout.InRange b.banks
  | _ => True

theorem InRange.ofNumber? {number : UInt8} {counts : BankCounts} {b : Board}
    (made : Board.ofNumber? number counts = some b) : b.InRange := by
  unfold Board.ofNumber? at made
  split at made <;> cases made
  · trivial
  · trivial
  · exact counts.prg_pos
  · exact Nat.lt_of_lt_of_le Nat.one_pos (Nat.le_max_right ..)
  · exact Mmc3.Layout.InRange.initial counts
  · trivial

/-! ### Operations -/

@[simp] theorem Mmc1.banks_writeBit (b : Mmc1) (address : UInt16) (data : UInt8) (step : UInt64) :
    (b.writeBit address data step).banks = b.banks := by
  unfold Mmc1.writeBit
  split
  · rfl
  · split
    · rfl
    · cases b.serialGate <;> dsimp only <;> split <;> rfl

@[simp] theorem Mmc2.banks_writeRegister (b : Mmc2) (address : UInt16) (data : UInt8) :
    (b.writeRegister address data).banks = b.banks := by
  unfold Mmc2.writeRegister
  repeat (split; · rfl)
  rfl

/-- Only the two registers of banks and modes bear on the layout, and they find it again. -/
theorem Mmc3.writeRegister_layout (b : Mmc3) (address : UInt16) (data : UInt8) :
    (b.writeRegister address data).banks = b.banks ∧
      ((b.writeRegister address data).layout = b.layout ∨
        ∃ r, (b.writeRegister address data).layout = .ofRegisters b.banks r) := by
  unfold Mmc3.writeRegister
  dsimp only
  split
  · exact ⟨rfl, .inr ⟨_, rfl⟩⟩
  · refine ⟨?_, .inl ?_⟩ <;> split_ifs <;> rfl

@[simp] theorem Mmc2.banks_fetch (b : Mmc2) (address : UInt16) :
    (b.fetch address).2.banks = b.banks := by
  unfold Mmc2.fetch
  split <;> rfl

/-- A read of the picture unit is for the board to notice only where it flips a latch. -/
theorem chrRead_snd (b : Board) (address : UInt16) :
    (b.chrRead address).2 = b ∨
      ∃ m, b = .mmc2 m ∧ (b.chrRead address).2 = .mmc2 (m.fetch address).2 := by
  unfold chrRead
  split
  · exact .inl rfl
  · cases b with
    | mmc2 m => exact .inr ⟨m, rfl, rfl⟩
    | _ => exact .inl rfl

@[simp] theorem banks_cpuWrite (b : Board) (address : UInt16) (data : UInt8) (step : UInt64) :
    (b.cpuWrite address data step).2.banks = b.banks := by
  cases b with
  | nrom b => rfl
  | mmc1 b =>
    simp only [cpuWrite, Mmc1.cpuWrite, banks]
    split_ifs
    · exact b.banks_writeBit address data step
    · rfl
    · rfl
  | uxrom b =>
    simp only [cpuWrite, Uxrom.cpuWrite, banks]
    split <;> rfl
  | cnrom b =>
    simp only [cpuWrite, Cnrom.cpuWrite, banks]
    split <;> rfl
  | mmc3 b =>
    simp only [cpuWrite, Mmc3.cpuWrite, banks]
    split_ifs
    · exact (b.writeRegister_layout address data).1
    · rfl
    · rfl
  | mmc2 b =>
    simp only [cpuWrite, Mmc2.cpuWrite, banks]
    split_ifs
    · exact b.banks_writeRegister address data
    · rfl
    · rfl

/-- A board keeps its memory. -/
@[simp] theorem banks_apply (b : Board) (op : Operation) : (b.apply op).banks = b.banks := by
  cases op with
  | cpuRead _ | chrWrite _ => rfl
  | cpuWrite address data step => exact b.banks_cpuWrite address data step
  | chrRead address =>
    obtain same | ⟨m, rfl, flipped⟩ := b.chrRead_snd address
    · exact congrArg banks same
    · exact (congrArg banks flipped).trans (m.banks_fetch address)
  | scanline | clearIrq | reset | setGate _ | loadRam _ => cases b <;> rfl

theorem InRange.cpuWrite {b : Board} (h : b.InRange) (address : UInt16) (data : UInt8)
    (step : UInt64) : (b.cpuWrite address data step).2.InRange := by
  cases b with
  | nrom _ | mmc1 _ | mmc2 _ => trivial
  | uxrom b =>
    simp only [Board.cpuWrite, Uxrom.cpuWrite]
    split
    · exact Nat.mod_lt _ b.banks.prg_pos
    · exact h
  | cnrom b =>
    simp only [Board.cpuWrite, Cnrom.cpuWrite]
    split
    · exact Nat.mod_lt _ (Nat.lt_of_lt_of_le Nat.one_pos (Nat.le_max_right ..))
    · exact h
  | mmc3 b =>
    simp only [Board.cpuWrite, Mmc3.cpuWrite]
    split_ifs
    · obtain ⟨banks, same | ⟨r, found⟩⟩ := b.writeRegister_layout address data
      · simpa only [InRange, banks, same] using h
      · simpa only [InRange, banks, found] using Mmc3.Layout.InRange.ofRegisters b.banks r
    · exact h
    · exact h

/-- What is done to a board keeps its offsets in range. -/
theorem InRange.apply {b : Board} (h : b.InRange) (op : Operation) : (b.apply op).InRange := by
  cases op with
  | cpuRead _ | chrWrite _ => exact h
  | cpuWrite address data step => exact h.cpuWrite address data step
  | chrRead address =>
    change (b.chrRead address).2.InRange
    obtain same | ⟨m, rfl, flipped⟩ := b.chrRead_snd address
    · rwa [same]
    · rw [flipped]
      trivial
  | scanline | clearIrq | setGate _ | loadRam _ => cases b <;> exact h
  | reset =>
    cases b with
    | nrom _ | mmc1 _ | mmc2 _ => trivial
    | uxrom b => exact b.banks.prg_pos
    | cnrom b => exact Nat.lt_of_lt_of_le Nat.one_pos (Nat.le_max_right ..)
    | mmc3 b => exact Mmc3.Layout.InRange.initial b.banks

/-! ### Offsets that are answered -/

/-- An MMC1 board shows its only bank in a window of 32 KiB, and the address is in the upper half of
the window. -/
def overhangs (b : Board) (address : UInt16) : Bool :=
  match b with
  | .mmc1 b => b.banks.prg == 1 && b.registers.joinsPrg && 0xC000 ≤ address
  | _ => false

theorem prg_of_overhangs {b : Board} {address : UInt16} (beyond : b.overhangs address = true) :
    b.banks.prg = 1 := by
  cases b with
  | mmc1 b =>
    simp only [overhangs, Bool.and_eq_true, beq_iff_eq] at beyond
    exact beyond.1.1
  | nrom _ | uxrom _ | cnrom _ | mmc3 _ | mmc2 _ => cases beyond

/-- Every offset that a board answers lies in memory of given counts, or one bank further where it
overhangs. -/
structure IsWithin (b : Board) (counts : BankCounts) : Prop where
  banks : b.banks = counts
  cpuRead : ∀ address offset, b.cpuRead address = some (.prg offset) →
    if b.overhangs address then offset = 0x4000 + within address 0x4000
    else offset < 0x4000 * counts.prg
  cpuWrite : ∀ address data step offset, (b.cpuWrite address data step).1 = some (.prg offset) →
    offset < 0x4000 * counts.prg
  chrRead : ∀ address offset, (b.chrRead address).1 = some offset →
    offset < 0x2000 * max counts.chr 1
  chrWrite : ∀ address offset, b.chrWrite address = some offset →
    offset < 0x2000 * max counts.chr 1

namespace Mmc1

variable {b : Mmc1} {address : UInt16}

/-- Of a window of 32 KiB, a single bank fills the lower half. -/
theorem prgOffset_of_single (joined : b.registers.joinsPrg = true) (single : b.banks.prg = 1)
    (address : UInt16) : b.prgOffset address = within address 0x8000 := by
  simp only [prgOffset, joined, single, if_true, Nat.reduceDiv, Nat.zero_max, Nat.mod_one,
    Nat.zero_mul, Nat.zero_add]

theorem prgOffset_of_overhangs (beyond : overhangs (.mmc1 b) address = true) :
    b.prgOffset address = 0x4000 + within address 0x4000 := by
  simp only [overhangs, Bool.and_eq_true, beq_iff_eq, decide_eq_true_eq] at beyond
  obtain ⟨⟨single, joined⟩, upper⟩ := beyond
  have from_upper : 0xC000 ≤ address.toNat := upper
  have word : address.toNat < 0x10000 := address.toNat_lt
  rw [prgOffset_of_single joined single]
  unfold within
  omega

theorem prgOffset_lt (inside : overhangs (.mmc1 b) address = false) (upper : 0x8000 ≤ address) :
    b.prgOffset address < 0x4000 * b.banks.prg := by
  have some_banks := b.banks.prg_pos
  by_cases joined : b.registers.joinsPrg = true
  · by_cases single : b.banks.prg = 1
    · have lower : address < 0xC000 := by
        simpa [overhangs, single, joined] using inside
      have from_upper : 0x8000 ≤ address.toNat := upper
      have below : address.toNat < 0xC000 := lower
      rw [prgOffset_of_single joined single, single]
      unfold within
      omega
    · -- Two banks or more make whole windows, which all lie in memory.
      have some_windows : 0 < max (b.banks.prg / 2) 1 := by omega
      have whole := bank_offset_lt (Nat.mod_lt b.windows.prgWhole some_windows) address 0x8000
        (by decide)
      simp only [prgOffset, joined, if_true]
      omega
  · have low := bank_offset_lt (Nat.mod_lt b.windows.prgLow some_banks) address 0x4000 (by decide)
    have high := bank_offset_lt (Nat.mod_lt b.windows.prgHigh some_banks) address 0x4000 (by decide)
    simp only [prgOffset, joined, Bool.false_eq_true, if_false]
    split
    · exact low
    · exact high

end Mmc1

theorem Mmc2.prgBankAt_lt (b : Mmc2) (address : UInt16) : b.prgBankAt address < b.prgCount := by
  have some_banks := b.banks.prg_pos
  have some_count : 0 < b.prgCount := by
    unfold prgCount
    omega
  have wrapped := Nat.mod_lt b.prgBank.toNat some_count
  unfold prgBankAt
  split_ifs <;> omega

theorem Mmc3.Layout.InRange.prgOffset_lt {l : Mmc3.Layout} {banks : BankCounts}
    (h : l.InRange banks) (window : Fin 4) (address : UInt16) :
    l.prg[window] + within address 0x2000 < 0x4000 * banks.prg := by
  have ends := h.prg _ (Vector.getElem_mem window.isLt)
  have := within_lt address 0x2000 (by decide)
  exact Nat.lt_of_lt_of_le (Nat.add_lt_add_left this _) ends

theorem Mmc3.Layout.InRange.chrOffset_lt {l : Mmc3.Layout} {banks : BankCounts}
    (h : l.InRange banks) (window : Fin 8) (address : UInt16) :
    l.chr[window] + within address 0x0400 < 0x2000 * max banks.chr 1 := by
  have ends := h.chr _ (Vector.getElem_mem window.isLt)
  have := within_lt address 0x0400 (by decide)
  exact Nat.lt_of_lt_of_le (Nat.add_lt_add_left this _) ends

/-- A processor read stays in program memory, but for the exception. -/
theorem InRange.cpuRead {b : Board} (h : b.InRange) {address : UInt16} {offset : Nat}
    (reached : b.cpuRead address = some (.prg offset)) :
    if b.overhangs address then offset = 0x4000 + within address 0x4000
    else offset < 0x4000 * b.banks.prg := by
  cases b with
  | nrom b =>
    simp only [Board.cpuRead, Nrom.cpuRead] at reached
    split at reached <;> cases reached
    exact fixedPrg_lt ..
  | mmc1 b =>
    simp only [Board.cpuRead, Mmc1.cpuRead] at reached
    split_ifs at reached with upper <;> cases reached
    split_ifs with beyond
    · exact Mmc1.prgOffset_of_overhangs beyond
    · exact Mmc1.prgOffset_lt (Bool.eq_false_iff.mpr beyond) upper
  | uxrom b =>
    have some_banks := b.banks.prg_pos
    have last : b.high < b.banks.prg := by
      unfold Uxrom.high
      omega
    have low := bank_offset_lt (show b.low < b.banks.prg from h) address 0x4000 (by decide)
    have high := bank_offset_lt last address 0x4000 (by decide)
    simp only [Board.cpuRead, Uxrom.cpuRead] at reached
    simp only [overhangs, Bool.false_eq_true, if_false, Board.banks]
    split_ifs at reached <;> cases reached
    · exact high
    · exact low
  | cnrom b =>
    simp only [Board.cpuRead, Cnrom.cpuRead] at reached
    split at reached <;> cases reached
    exact fixedPrg_lt ..
  | mmc3 b =>
    simp only [Board.cpuRead, Mmc3.cpuRead] at reached
    simp only [overhangs, Bool.false_eq_true, if_false, Board.banks]
    split_ifs at reached <;> cases reached
    exact Mmc3.Layout.InRange.prgOffset_lt h _ address
  | mmc2 b =>
    have bank := bank_offset_lt (b.prgBankAt_lt address) address 0x2000 (by decide)
    simp only [Board.cpuRead, Mmc2.cpuRead] at reached
    simp only [overhangs, Bool.false_eq_true, if_false, Board.banks]
    unfold Mmc2.prgCount at bank
    split_ifs at reached <;> cases reached
    omega

/-- Only boards without registers let program memory be written. -/
theorem cpuWrite_lt {b : Board} {address : UInt16} {data : UInt8} {step : UInt64} {offset : Nat}
    (reached : (b.cpuWrite address data step).1 = some (.prg offset)) :
    offset < 0x4000 * b.banks.prg := by
  cases b with
  | nrom b =>
    simp only [Board.cpuWrite, Nrom.cpuWrite] at reached
    split at reached <;> cases reached
    exact fixedPrg_lt ..
  | mmc1 b =>
    simp only [Board.cpuWrite, Mmc1.cpuWrite] at reached
    split_ifs at reached; cases reached
  | mmc3 b =>
    simp only [Board.cpuWrite, Mmc3.cpuWrite] at reached
    split_ifs at reached; cases reached
  | mmc2 b =>
    simp only [Board.cpuWrite, Mmc2.cpuWrite] at reached
    split_ifs at reached; cases reached
  | uxrom _ | cnrom _ => cases reached

theorem Mmc1.chrOffset_lt (b : Mmc1) {address : UInt16} (pattern : address < chrEnd) :
    b.chrOffset address < 0x2000 * max b.banks.chr 1 := by
  have below : address.toNat < 0x2000 := pattern
  unfold chrOffset
  dsimp only
  split_ifs with none_there split low
  · omega
  · have some_banks : 0 < b.banks.chr * 2 := by omega
    have := bank_offset_lt (Nat.mod_lt b.windows.chrLow some_banks) address 0x1000 (by decide)
    omega
  · have some_banks : 0 < b.banks.chr * 2 := by omega
    have := bank_offset_lt (Nat.mod_lt b.windows.chrHigh some_banks) address 0x1000 (by decide)
    omega
  · have some_banks : 0 < b.banks.chr := by omega
    have := bank_offset_lt (Nat.mod_lt b.windows.chrWhole some_banks) address 0x2000 (by decide)
    omega

theorem Mmc2.fetch_lt (b : Mmc2) (address : UInt16) :
    (b.fetch address).1 < 0x2000 * max b.banks.chr 1 := by
  have in_window (w : Mmc2.ChrWindow) : b.chrOffset w address < 0x2000 * max b.banks.chr 1 := by
    have some_banks : 0 < max (b.banks.chr * 2) 2 := by omega
    have := bank_offset_lt (Nat.mod_lt w.bank.toNat some_banks) address 0x1000 (by decide)
    unfold chrOffset
    omega
  unfold fetch
  split <;> exact in_window _

theorem InRange.chrRead {b : Board} (h : b.InRange) {address : UInt16} {offset : Nat}
    (reached : (b.chrRead address).1 = some offset) : offset < 0x2000 * max b.banks.chr 1 := by
  unfold Board.chrRead at reached
  split at reached
  · cases reached
  · rename_i outside
    have pattern : address < chrEnd := UInt16.not_le.mp outside
    have below : address.toNat < 0x2000 := pattern
    cases b with
    | nrom _ | uxrom _ =>
      obtain rfl := Option.some.inj reached
      omega
    | mmc1 b => exact Option.some.inj reached ▸ b.chrOffset_lt pattern
    | cnrom b =>
      obtain rfl := Option.some.inj reached
      have := bank_offset_lt (show b.chrBank < max b.banks.chr 1 from h) address 0x2000 (by decide)
      simp only [Cnrom.chrOffset, Board.banks]
      omega
    | mmc3 b => exact Option.some.inj reached ▸ Mmc3.Layout.InRange.chrOffset_lt h _ address
    | mmc2 b => exact Option.some.inj reached ▸ b.fetch_lt address

theorem InRange.chrWrite {b : Board} (h : b.InRange) {address : UInt16} {offset : Nat}
    (reached : b.chrWrite address = some offset) : offset < 0x2000 * max b.banks.chr 1 := by
  unfold Board.chrWrite at reached
  split at reached
  · cases reached
  · rename_i refused
    simp only [Bool.or_eq_true, decide_eq_true_eq, not_or] at refused
    have pattern : address < chrEnd := UInt16.not_le.mp refused.1
    have below : address.toNat < 0x2000 := pattern
    cases b with
    | mmc1 b => exact Option.some.inj reached ▸ b.chrOffset_lt pattern
    | mmc3 b => exact Option.some.inj reached ▸ Mmc3.Layout.InRange.chrOffset_lt h _ address
    | nrom _ | uxrom _ | cnrom _ | mmc2 _ =>
      obtain rfl := Option.some.inj reached
      omega

/-- A board whose offsets are in range answers none outside its memory. -/
theorem InRange.isWithin {b : Board} (h : b.InRange) : b.IsWithin b.banks where
  banks := rfl
  cpuRead _ _ := h.cpuRead
  cpuWrite _ _ _ _ := cpuWrite_lt
  chrRead _ _ := h.chrRead
  chrWrite _ _ := h.chrWrite

/-- So it is after a run of a board that was in range. -/
theorem InRange.isWithin_foldl {b : Board} (h : b.InRange) (ops : List Operation) :
    (ops.foldl Board.apply b).IsWithin b.banks := by
  obtain ⟨range, kept⟩ : (ops.foldl Board.apply b).InRange ∧
      (ops.foldl Board.apply b).banks = b.banks :=
    List.foldlRecOn ops Board.apply (motive := fun b' => b'.InRange ∧ b'.banks = b.banks)
      ⟨h, rfl⟩ fun b' ⟨range, kept⟩ op _ => ⟨range.apply op, (b'.banks_apply op).trans kept⟩
  exact kept ▸ range.isWithin

end Board

/-! ### Cartridges -/

namespace Cartridge

/-- No offset wraps around the memory of a cartridge, except that one that overhangs reaches the one
bank there is. -/
structure WrapsNothing (c : Cartridge) : Prop where
  cpuRead : ∀ address offset, c.board.cpuRead address = some (.prg offset) →
    offset % c.prg.size =
      if c.board.overhangs address then Board.within address 0x4000 else offset
  cpuWrite : ∀ address data step offset,
    (c.board.cpuWrite address data step).1 = some (.prg offset) → offset % c.prg.size = offset
  patternRead : ∀ address offset, (c.board.chrRead address).1 = some offset →
    offset % c.chr.size = offset
  patternWrite : ∀ address offset, c.board.chrWrite address = some offset →
    offset % c.chr.size = offset

/-- The memory of a cartridge is what its board is made for, or larger, and the offsets that the
board keeps lie in it. -/
structure IsWired (c : Cartridge) : Prop where
  range : c.board.InRange
  prg : c.prg.size = 0x4000 * c.board.banks.prg
  chr : 0x2000 * max c.board.banks.chr 1 ≤ c.chr.size

theorem IsWired.wrapsNothing {c : Cartridge} (h : c.IsWired) : c.WrapsNothing := by
  have inside := h.range.isWithin
  refine ⟨?_, ?_, ?_, ?_⟩
  · intro address offset reached
    have place := inside.cpuRead address offset reached
    split_ifs at place ⊢ with beyond
    · -- A board overhangs only with a single bank, which is then all of program memory.
      have single : c.board.banks.prg = 1 := Board.prg_of_overhangs beyond
      rw [place, h.prg, single, Nat.mul_one, Nat.add_mod_left]
      exact Nat.mod_eq_of_lt (Board.within_lt address 0x4000 (by decide))
    · exact Nat.mod_eq_of_lt (h.prg ▸ place)
  · intro address data step offset reached
    exact Nat.mod_eq_of_lt (h.prg ▸ inside.cpuWrite address data step offset reached)
  · intro address offset reached
    exact Nat.mod_eq_of_lt (Nat.lt_of_lt_of_le (inside.chrRead address offset reached) h.chr)
  · intro address offset reached
    exact Nat.mod_eq_of_lt (Nat.lt_of_lt_of_le (inside.chrWrite address offset reached) h.chr)

/-- The cartridge of an image is wired to the memory that the image brings. -/
theorem IsWired.ofImage {image : ByteArray} {c : Cartridge}
    (loaded : Cartridge.ofImage image = .ok c) : c.IsWired := by
  obtain ⟨met, made⟩ := isMadeOf_of_ofImage loaded
  have prg_banks := made.prgBanks
  have chr_banks := made.chrBanks
  refine ⟨.ofNumber? made.ofNumber?, ?_, ?_⟩
  · rw [made.prg_size, prg_banks]
  · unfold Block.size
    rw [made.chr, chr_banks]
    split
    · rename_i none_declared
      rw [none_declared, size_zeroBytes]
      decide
    · have room := Image.le_chrEnd (met .chrRom)
      have inside := made.inside.2
      rw [ByteArray.size_extract]
      omega

section Runs

variable {δ : Type} [FileStore δ]

/-- A save is loaded into the board, if anywhere. -/
theorem IsWired.attachSave {c : Cartridge} (h : c.IsWired) (path : String) (store : δ) :
    (c.attachSave path store).IsWired := by
  unfold Cartridge.attachSave
  split
  · exact h
  · split
    · split
      · rename_i image _
        have kept := c.board.banks_apply (.loadRam image)
        exact ⟨h.range.apply (.loadRam image), h.prg.trans (by rw [← kept]; rfl),
          Nat.le_trans (by rw [← kept]; rfl) h.chr⟩
      · exact ⟨h.range, h.prg, h.chr⟩
    · exact ⟨h.range, h.prg, h.chr⟩

theorem IsWired.of_isLoaded {c : Cartridge} (loaded : IsLoaded δ c) : c.IsWired := by
  cases loaded with
  | ofImage loaded => exact .ofImage loaded
  | @openFile path saveDirectory store _ opened =>
    unfold Cartridge.openFile at opened
    split at opened
    · cases opened
    · split at opened
      · cases opened
      · rename_i image _ c loaded
        obtain rfl := Except.ok.inj opened
        split
        · exact (IsWired.ofImage loaded).attachSave _ store
        · exact .ofImage loaded

theorem IsWired.apply {s : Cartridge × δ} (h : s.1.IsWired) (op : Operation) :
    (apply s op).1.IsWired := by
  obtain ⟨prg, chr, persistence, moved, prg_size, chr_size⟩ := exists_apply s op
  rw [moved]
  refine ⟨h.range.apply op.onBoard, ?_, ?_⟩
  · simpa only [Board.banks_apply, prg_size] using h.prg
  · simpa only [Board.banks_apply, chr_size] using h.chr

end Runs

/-- **Every offset lies in the memory of the cartridge.** Whatever is done to a board that is made
for some memory, the offsets that it answers lie in that memory, except where a single bank
overhangs a window of 32 KiB. So no offset of a cartridge wraps, except that it then shows its bank
twice. -/
theorem offsets_within_memory :
    (∀ (number : UInt8) (counts : Board.BankCounts) (start : Board),
      Board.ofNumber? number counts = some start →
        ∀ ops : List Board.Operation, (ops.foldl Board.apply start).IsWithin counts) ∧
    ∀ (δ : Type) [FileStore δ] (c : Cartridge), IsLoaded δ c →
      ∀ (store : δ) (ops : List Operation), (ops.foldl apply (c, store)).1.WrapsNothing := by
  refine ⟨?_, ?_⟩
  · intro number counts start made ops
    exact Board.banks_ofNumber? made ▸ (Board.InRange.ofNumber? made).isWithin_foldl ops
  · intro δ _ c loaded store ops
    have wired : (ops.foldl apply (c, store)).1.IsWired :=
      List.foldlRecOn ops apply (motive := fun s : Cartridge × δ => s.1.IsWired)
        (IsWired.of_isLoaded loaded) fun _ kept op _ => kept.apply op
    exact wired.wrapsNothing

/-- Five writes switch a board with a single bank to a window of 32 KiB, which it overhangs. -/
theorem offsets_of_single_bank :
    let counts : Board.BankCounts := ⟨1, 0, by decide⟩
    let wide : List Board.Operation := .replicate 5 (.cpuWrite 0x8000 0x00 0)
    (∃ start, Board.ofNumber? 1 counts = some start ∧
      (wide.foldl Board.apply start).cpuRead 0xC123 = some (.prg 0x4123) ∧
      (wide.foldl Board.apply start).IsWithin counts) ∧
    ∃ c, IsLoaded Disk c ∧ ∀ store : Disk,
      ((List.replicate 5 (.cpuWrite 0x8000 0x00 0)).foldl apply (c, store)).1.WrapsNothing := by
  intro counts wide
  refine ⟨⟨_, rfl, by decide, offsets_within_memory.1 1 counts _ rfl wide⟩, ?_⟩
  obtain ⟨c, loaded, -⟩ := exists_ofImage (isMet_singleBank (.inr rfl))
  exact ⟨c, .ofImage loaded, fun store =>
    offsets_within_memory.2 Disk c (.ofImage loaded) store _⟩

end Cartridge

end Famicom
