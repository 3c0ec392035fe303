import Mathlib.Tactic.IntervalCases
import Famicom.Board.WordSize
import Famicom.Proofs.Cartridge.Mmc3Events

/-!
# The layout of an MMC3 board

An MMC3 board keeps the offsets of twelve windows, which it finds again whenever a bank number is
put into a register or the target and the modes are chosen. So the layout can be read off what was
done since power-on or the last reset: each register holds the last byte that was put into it while
it was the target, and the last choice tells the target and the modes.

Before anything is programmed the layout is one of its own, and not that of registers which are all
zero: the windows of pattern memory all show the first bank, and $A000 shows the second bank of
program memory.

## Main definitions

* `Mmc3.selection`, `Mmc3.bankNumber` — what a history leaves in the registers
* `Mmc3.chrBank`, `Mmc3.prgBank` — the banks that a history leaves in the windows
* `Mmc3.Remembers` — a board holds what a history leaves

## Main results

* `Mmc3.Remembers.after` — one event
* `Mmc3.exists_remembers` — every run
* `Mmc3.layout_of_history` — where every address leads after any run
-/

namespace Famicom.Board.Mmc3

/-! ### What a history leaves

Histories are listed latest first. -/

/-- The byte by which an event chooses the target and the modes. -/
def Event.selection? : Event → Option UInt8
  | .select data => some data
  | _ => none

/-- Something was programmed. -/
def isProgrammed (recent : List Operation) : Bool :=
  recent.any fun op => op.onMmc3.programs

/-- The last choice of the target and the modes, or 0. -/
def selection (recent : List Operation) : UInt8 :=
  (recent.findSome? fun op => op.onMmc3.selection?).getD 0

/-- The lowest three bits of a choice are the target. -/
def target (recent : List Operation) : Nat :=
  (selection recent).toNat % 8

/-- Bit 6 of a choice exchanges the windows at $8000 and $C000. -/
def exchangesPrg (recent : List Operation) : Bool :=
  (selection recent).toNat.testBit 6

/-- Bit 7 of a choice exchanges the halves of pattern memory. -/
def exchangesChr (recent : List Operation) : Bool :=
  (selection recent).toNat.testBit 7

/-- The last byte that was put into a register while it was the target, or 0. -/
def bankNumber (i : Nat) : List Operation → UInt8
  | [] => 0
  | op :: earlier =>
    match op.onMmc3 with
    | .put data => if target earlier = i then data else bankNumber i earlier
    | _ => bankNumber i earlier

/-- The numbers of the eight banks of 1 KiB of pattern memory, in the order without an exchange. The
first two registers choose pairs. -/
def patternNumber (recent : List Operation) : Nat → UInt8
  | 0 => bankNumber 0 recent &&& 0xFE
  | 1 => bankNumber 0 recent ||| 1
  | 2 => bankNumber 1 recent &&& 0xFE
  | 3 => bankNumber 1 recent ||| 1
  | 4 => bankNumber 2 recent
  | 5 => bankNumber 3 recent
  | 6 => bankNumber 4 recent
  | _ => bankNumber 5 recent

/-- The bank in a slot of 1 KiB of pattern memory. -/
def chrBank (counts : BankCounts) (recent : List Operation) (slot : Nat) : Nat :=
  if isProgrammed recent then
    let place := if exchangesChr recent then (slot + 4) % 8 else slot
    (patternNumber recent place).toNat % max (8 * counts.chr) 8
  else 0

/-- The bank of 8 KiB in a window of program memory. The windows are at $8000, $A000, $C000 and
$E000. -/
def prgBank (counts : BankCounts) (recent : List Operation) (window : Nat) : Nat :=
  let count := 2 * counts.prg
  if isProgrammed recent then
    let switched := (bankNumber 6 recent &&& 0x3F).toNat % count
    match window with
    | 0 => if exchangesPrg recent then count - 2 else switched
    | 1 => (bankNumber 7 recent &&& 0x3F).toNat % count
    | 2 => if exchangesPrg recent then switched else count - 2
    | _ => count - 1
  else
    match window with
    | 0 => 0
    | 1 => 1
    | 2 => count - 2
    | _ => count - 1

/-! ### Boards -/

/-- A board holds what a history leaves. -/
structure Remembers (b : Mmc3) (counts : BankCounts) (recent : List Operation) : Prop where
  banks : b.banks = counts
  target : b.registers.target.val = target recent
  prgMode : b.registers.prgMode = exchangesPrg recent
  chrInversion : b.registers.chrInversion = exchangesChr recent
  values : ∀ (i : Nat) (register : i < 8), b.registers.values[i] = bankNumber i recent
  layout : b.layout =
    if isProgrammed recent then .ofRegisters counts b.registers else .initial counts

namespace Remembers

variable {b b' : Mmc3} {counts : BankCounts} {recent : List Operation} {op : Operation}

theorem initial (counts : BankCounts) : Remembers (.initial counts) counts [] where
  banks := rfl
  target := rfl
  prgMode := rfl
  chrInversion := rfl
  values _ _ := Vector.getElem_replicate ..
  layout := rfl

theorem reset (h : Remembers b counts recent) (event : op.onMmc3 = .reset)
    (moved : Follows b b' op.onMmc3) : Remembers b' counts [] := by
  rw [event] at moved
  obtain ⟨banks, registers, layout, -⟩ := moved
  refine ⟨banks.trans h.banks, ?_, ?_, ?_, ?_, ?_⟩
  · rw [registers]
    rfl
  · rw [registers]
    rfl
  · rw [registers]
    rfl
  · intro i register
    rw [registers]
    exact Vector.getElem_replicate ..
  · rw [layout, h.banks]
    rfl

/-- A choice is the last one. -/
theorem select (h : Remembers b counts recent) {data : UInt8} (event : op.onMmc3 = .select data)
    (moved : Follows b b' op.onMmc3) : Remembers b' counts (op :: recent) := by
  have chosen : selection (op :: recent) = data := by
    simp [selection, event, Event.selection?]
  have bit6 : (data &&& 0x40 != 0) = data.toNat.testBit 6 := and_bne_zero 6 rfl data
  have bit7 : (data &&& 0x80 != 0) = data.toNat.testBit 7 := and_bne_zero 7 rfl data
  rw [event] at moved
  obtain ⟨banks, registers, layout, -⟩ := moved
  refine ⟨banks.trans h.banks, ?_, ?_, ?_, ?_, ?_⟩
  · simp [registers, Registers.after, Registers.select, Mmc3.target, chosen]
  · simp [registers, Registers.after, Registers.select, exchangesPrg, chosen, bit6]
  · simp [registers, Registers.after, Registers.select, exchangesChr, chosen, bit7]
  · intro i register
    simp [registers, Registers.after, Registers.select, bankNumber, event, h.values i register]
  · simp [layout, registers, Layout.after, isProgrammed, event, Event.programs, h.banks]

/-- A byte goes into the target, and into no other register. -/
theorem put (h : Remembers b counts recent) {data : UInt8} (event : op.onMmc3 = .put data)
    (moved : Follows b b' op.onMmc3) : Remembers b' counts (op :: recent) := by
  have kept : selection (op :: recent) = selection recent := by
    simp [selection, event, Event.selection?]
  rw [event] at moved
  obtain ⟨banks, registers, layout, -⟩ := moved
  refine ⟨banks.trans h.banks, ?_, ?_, ?_, ?_, ?_⟩
  · simpa [registers, Registers.after, Registers.put, Mmc3.target, kept] using h.target
  · simpa [registers, Registers.after, Registers.put, exchangesPrg, kept] using h.prgMode
  · simpa [registers, Registers.after, Registers.put, exchangesChr, kept] using h.chrInversion
  · intro i register
    simp [registers, Registers.after, Registers.put, bankNumber, event, ← h.values i register,
      Vector.getElem_set, h.target]
  · simp [layout, registers, Layout.after, isProgrammed, event, Event.programs, h.banks]

/-- Anything else adds to the history, but not to what it leaves. -/
theorem keep (h : Remembers b counts recent) (idle : op.onMmc3.programs = false)
    (running : op.onMmc3 ≠ .reset) (moved : Follows b b' op.onMmc3) :
    Remembers b' counts (op :: recent) := by
  have kept : selection (op :: recent) = selection recent := by
    cases event : op.onMmc3 <;> simp_all [selection, Event.selection?, Event.programs]
  have same (i : Nat) : bankNumber i (op :: recent) = bankNumber i recent := by
    cases event : op.onMmc3 <;> simp_all [bankNumber, Event.programs]
  obtain ⟨banks, registers, layout, -⟩ := moved
  obtain ⟨registers_kept, layout_kept⟩ :=
    after_of_not_programs idle running b.registers b.layout b.banks
  rw [registers_kept] at registers layout
  refine ⟨banks.trans h.banks, ?_, ?_, ?_, ?_, ?_⟩
  · rw [registers, h.target, Mmc3.target, Mmc3.target, kept]
  · rw [registers, h.prgMode, exchangesPrg, exchangesPrg, kept]
  · rw [registers, h.chrInversion, exchangesChr, exchangesChr, kept]
  · intro i register
    rw [registers, h.values i register, same]
  · rw [layout, layout_kept, h.layout, registers]
    simp [isProgrammed, idle]

/-- An operation is remembered, unless it is a reset. -/
theorem after (h : Remembers b counts recent) (moved : Follows b b' op.onMmc3) :
    Remembers b' counts (if op.isReset then [] else op :: recent) := by
  rw [Operation.isReset_eq]
  cases event : op.onMmc3 with
  | reset => exact h.reset event moved
  | select data => exact h.select event moved
  | put data => exact h.put event moved
  | reload _ | restart | disable | enable | scanline | acknowledge | other =>
    exact h.keep (by rw [event]; rfl) (by rw [event]; nofun) moved

end Remembers

/-- After a run a board holds what was done since the last reset. -/
theorem exists_remembers (counts : BankCounts) (ops : List Operation) :
    ∃ b, ops.foldl Board.apply (.mmc3 (.initial counts)) = .mmc3 b ∧
      Remembers b counts (sinceReset ops) :=
  exists_run (.initial counts) (fun remembers follows => remembers.after follows) ops

/-! ### Where addresses lead -/

namespace Remembers

variable {b : Mmc3} {counts : BankCounts} {recent : List Operation}

/-- The numbers of the pattern banks are those of the history, in the order that it chose. -/
theorem getElem_chrBanks (h : Remembers b counts recent) (slot : Nat) (there : slot < 8) :
    b.registers.chrBanks[slot] =
      patternNumber recent (if exchangesChr recent then (slot + 4) % 8 else slot) := by
  have values := h.values
  rw [← h.chrInversion]
  unfold Registers.chrBanks
  cases b.registers.chrInversion
  · simp only [values, Bool.false_eq_true, if_false]
    match slot, there with
    | 0, _ | 1, _ | 2, _ | 3, _ | 4, _ | 5, _ | 6, _ | 7, _ => rfl
  · simp only [values, if_true]
    match slot, there with
    | 0, _ | 1, _ | 2, _ | 3, _ | 4, _ | 5, _ | 6, _ | 7, _ => rfl

/-- The program banks are those of the history, once anything is programmed. -/
theorem getElem_prgBanks (h : Remembers b counts recent) (programmed : isProgrammed recent = true)
    (window : Nat) (there : window < 4) :
    (b.registers.prgBanks counts)[window] = prgBank counts recent window := by
  have first := h.values 6 (by decide)
  have second := h.values 7 (by decide)
  simp only [prgBank, programmed, if_true, ← h.prgMode, Nat.mul_comm 2]
  unfold Registers.prgBanks prgCount
  cases b.registers.prgMode
  · simp only [first, second, Bool.false_eq_true, if_false]
    match window, there with
    | 0, _ | 1, _ | 2, _ | 3, _ => rfl
  · simp only [first, second, if_true]
    match window, there with
    | 0, _ | 1, _ | 2, _ | 3, _ => rfl

/-- The windows of program memory. -/
theorem getElem_prg (h : Remembers b counts recent) (window : Nat) (there : window < 4) :
    b.layout.prg[window] = prgBank counts recent window * 8192 := by
  have layout := h.layout
  cases programmed : isProgrammed recent with
  | true =>
    rw [programmed, if_pos rfl] at layout
    simp [layout, Layout.ofRegisters, h.getElem_prgBanks programmed window there]
  | false =>
    rw [programmed, if_neg Bool.false_ne_true] at layout
    -- There are two banks at least, so that the second one needs no remainder.
    have some_banks := counts.prg_pos
    have second : 1 % (2 * counts.prg) = 1 := Nat.mod_eq_of_lt (by omega)
    simp only [layout, prgBank, programmed, Bool.false_eq_true, if_false, Layout.initial, prgCount,
      Vector.getElem_map, Nat.mul_comm counts.prg, second]
    interval_cases window <;> rfl

/-- The slots of pattern memory. -/
theorem getElem_chr (h : Remembers b counts recent) (slot : Nat) (there : slot < 8) :
    b.layout.chr[slot] = chrBank counts recent slot * 1024 := by
  have layout := h.layout
  cases programmed : isProgrammed recent with
  | true =>
    rw [programmed, if_pos rfl] at layout
    simp [layout, Layout.ofRegisters, h.getElem_chrBanks slot there, chrBank, chrCount, programmed,
      Nat.mul_comm 8]
  | false =>
    rw [programmed, if_neg Bool.false_ne_true] at layout
    simp [layout, Layout.initial, chrBank, programmed]

/-- Where an address of program memory leads. -/
theorem cpuRead_eq (h : Remembers b counts recent) {address : UInt16} (upper : 0x8000 ≤ address) :
    b.cpuRead address =
      some (.prg (prgBank counts recent (address.toNat / 8192 % 4) * 8192 +
        address.toNat % 8192)) := by
  have from_upper : 0x8000 ≤ address.toNat := upper
  have window : (address.toNat - 0x8000) / 0x2000 % 4 = address.toNat / 8192 % 4 := by omega
  simp only [Mmc3.cpuRead, if_pos upper, Fin.getElem_fin, val_wrapTo, within]
  rw [h.getElem_prg _ (Nat.mod_lt _ (by decide)), window]

/-- Where an address of pattern memory leads. -/
theorem chrOffset_eq (h : Remembers b counts recent) {address : UInt16}
    (pattern : address < chrEnd) :
    b.chrOffset address =
      chrBank counts recent (address.toNat / 1024) * 1024 + address.toNat % 1024 := by
  have below : address.toNat < 0x2000 := pattern
  have slot : address.toNat % 0x2000 / 0x0400 % 8 = address.toNat / 1024 := by omega
  simp only [Mmc3.chrOffset, Fin.getElem_fin, val_wrapTo, within]
  rw [h.getElem_chr _ (Nat.mod_lt _ (by decide)), slot]

end Remembers

/-- **The layout follows the registers.** Whatever was done to an MMC3 board since power-on, its
windows show the banks that the history since the last reset left in its registers, and those of
power-on if nothing was programmed in it. No access of the processor or the picture unit is refused.
Only bank registers, the choice of target and modes, and resets change the layout. -/
theorem layout_of_history (counts : BankCounts) (ops : List Operation) :
    ∃ b : Mmc3, ops.foldl Board.apply (.mmc3 (.initial counts)) = .mmc3 b ∧
      (∀ address : UInt16, 0x8000 ≤ address →
        (Board.mmc3 b).cpuReadChecked address =
          .ok (some (.prg (prgBank counts (sinceReset ops) (address.toNat / 8192 % 4) * 8192 +
            address.toNat % 8192)))) ∧
      (∀ address : UInt16, address < chrEnd →
        let offset := chrBank counts (sinceReset ops) (address.toNat / 1024) * 1024 +
          address.toNat % 1024
        (Board.mmc3 b).chrReadChecked address = .ok (some offset, .mmc3 b) ∧
          (Board.mmc3 b).chrWrite address = if counts.chr = 0 then some offset else none) ∧
      ∀ op : Operation, op.onMmc3.programs = false → op.onMmc3 ≠ .reset →
        ∃ b', Board.apply (.mmc3 b) op = .mmc3 b' ∧ b'.layout = b.layout := by
  obtain ⟨b, run, remembers⟩ := exists_remembers counts ops
  refine ⟨b, run, ?_, ?_, ?_⟩
  · intro address upper
    simp [cpuReadChecked, cpuReadProducts, Checked.afterProducts, Board.cpuRead,
      remembers.cpuRead_eq upper]
  · intro address pattern offset
    have inside : ¬ chrEnd ≤ address := UInt16.not_le.mpr pattern
    have reached : b.chrOffset address = offset := remembers.chrOffset_eq pattern
    refine ⟨?_, ?_⟩
    · simp [chrReadChecked, chrReadProducts, Checked.afterProducts, chrRead, inside, reached]
    · have banks : (Board.mmc3 b).banks = counts := remembers.banks
      by_cases ram : counts.chr = 0 <;> simp [chrWrite, inside, banks, ram, reached]
  · intro op idle running
    obtain ⟨b', moved, follows⟩ := b.exists_apply op
    have kept := after_of_not_programs idle running (b.registers.after op.onMmc3) b.layout b.banks
    exact ⟨b', moved, follows.layout.trans kept.2⟩

/-- Both modes are set, and a pattern register goes back to zero with the reset. -/
theorem layout_of_history_of_modes :
    let counts : BankCounts := ⟨4, 8, by decide⟩
    let ops : List Operation := [.cpuWrite 0x8000 0x02 0, .cpuWrite 0x8001 0x21 0, .reset,
      .cpuWrite 0x8000 0x06 0, .cpuWrite 0x8001 0x03 0, .cpuWrite 0x9FFE 0xC7 0,
      .cpuWrite 0x9FFF 0x45 0, .cpuWrite 0xC000 0x55 0, .scanline, .cpuWrite 0x8000 0xC0 0,
      .cpuWrite 0x8001 0x09 0]
    (0x8000 : UInt16) ≤ 0x8000 ∧ (0x8000 : UInt16) ≤ 0xA005 ∧ (0x8000 : UInt16) ≤ 0xC123 ∧
      (0x0000 : UInt16) < chrEnd ∧ (0x1401 : UInt16) < chrEnd ∧
      Operation.onMmc3 .scanline ≠ .reset ∧
      ∃ b : Mmc3, ops.foldl Board.apply (.mmc3 (.initial counts)) = .mmc3 b ∧
        (Board.mmc3 b).cpuReadChecked 0x8000 = .ok (some (.prg (6 * 8192))) ∧
        (Board.mmc3 b).cpuReadChecked 0xA005 = .ok (some (.prg (5 * 8192 + 5))) ∧
        (Board.mmc3 b).cpuReadChecked 0xC123 = .ok (some (.prg (3 * 8192 + 0x123))) ∧
        (Board.mmc3 b).chrReadChecked 0x0000 = .ok (some 0, .mmc3 b) ∧
        (Board.mmc3 b).chrReadChecked 0x1401 = .ok (some (9 * 1024 + 1), .mmc3 b) ∧
        ∃ b', Board.apply (.mmc3 b) .scanline = .mmc3 b' ∧ b'.layout = b.layout := by
  intro counts ops
  obtain ⟨b, run, programs, patterns, keeps⟩ := layout_of_history counts ops
  have banks : prgBank counts (sinceReset ops) 0 = 6 ∧ prgBank counts (sinceReset ops) 1 = 5 ∧
      prgBank counts (sinceReset ops) 2 = 3 ∧ chrBank counts (sinceReset ops) 0 = 0 ∧
      chrBank counts (sinceReset ops) 5 = 9 := by decide
  obtain ⟨first, second, third, low, high⟩ := banks
  refine ⟨by decide, by decide, by decide, by decide, by decide, by decide, b, run, ?_, ?_, ?_, ?_,
    ?_, keeps .scanline rfl (by decide)⟩
  · simpa [first] using programs 0x8000 (by decide)
  · simpa [second] using programs 0xA005 (by decide)
  · simpa [third] using programs 0xC123 (by decide)
  · simpa [low] using (patterns 0x0000 (by decide)).1
  · simpa [high] using (patterns 0x1401 (by decide)).1

end Famicom.Board.Mmc3
