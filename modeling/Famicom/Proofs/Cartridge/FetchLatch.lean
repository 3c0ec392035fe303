import Mathlib.Data.Fin.Basic
import Mathlib.Data.List.Basic
import Mathlib.Data.List.Induction
import Mathlib.Tactic.IntervalCases
import Famicom.Proofs.Cartridge.PatternRam
import Famicom.Proofs.Cartridge.RegisterBits

/-!
# The latches of an MMC2 board

Reads of the picture unit change an MMC2 board, so where a read leads depends on the reads before
it. Each window of pattern memory has a latch, which is at the side of the last fetch of pattern FD
or FE in that window since power-on or the last reset, and at FD if there was none. A read is served
from the bank at that side; if it is itself a fetch of one of the two patterns, it counts for the
reads after it.

The banks at the two sides are those that were last written to the registers of the window. Resets
do not change them.

## Main definitions

* `Operation.flips?` — the side at which an operation puts the latch of a window
* `Operation.fdBank?`, `Operation.feBank?` — the banks that an operation puts into a window
* `Mmc2.ChrWindow.after` — a window after an operation
* `Mmc2.ChrWindow.ofHistory` — what a history leaves in a window

## Main results

* `Mmc2.exists_apply` — one operation
* `Mmc2.exists_run` — every run
* `Mmc2.fetch_of_history` — the bank that serves a read after any run
-/

namespace Famicom.Board

/-! ### What operations do to a window -/

/-- The side of a pattern that the picture unit fetches, if it is pattern FD or FE. FE is `true`. -/
def fetchSide? (address : UInt16) : Option Bool :=
  if address &&& 0x0FF0 = 0x0FD0 then some false
  else if address &&& 0x0FF0 = 0x0FE0 then some true
  else none

namespace Operation

/-- The side at which an operation puts the latch of a window. Only reads of the picture unit in
that window do. -/
def flips? (w : Fin 2) : Operation → Option Bool
  | .chrRead address => if address.toNat / 0x1000 = w then fetchSide? address else none
  | _ => none

/-- The bank that an operation puts at FD. The registers are at $B000 and $D000. -/
def fdBank? (w : Fin 2) : Operation → Option UInt8
  | .cpuWrite address data _ =>
    if address.toNat / 0x1000 = 0xB + 2 * w then some (data &&& 0x1F) else none
  | _ => none

/-- The bank that an operation puts at FE. The registers are at $C000 and $E000. -/
def feBank? (w : Fin 2) : Operation → Option UInt8
  | .cpuWrite address data _ =>
    if address.toNat / 0x1000 = 0xC + 2 * w then some (data &&& 0x1F) else none
  | _ => none

end Operation

namespace Mmc2

/-- The two windows of pattern memory. -/
def window (b : Mmc2) : Fin 2 → ChrWindow
  | 0 => b.lower
  | 1 => b.upper

/-- A window after an operation. -/
def ChrWindow.after (window : ChrWindow) (w : Fin 2) (op : Operation) : ChrWindow where
  fd := (op.fdBank? w).getD window.fd
  fe := (op.feBank? w).getD window.fe
  latch := if op.isReset then false else (op.flips? w).getD window.latch

/-- What a history leaves in a window: the banks that were written last, and the side of the last
fetch since power-on or the last reset. -/
def ChrWindow.ofHistory (w : Fin 2) (ops : List Operation) : ChrWindow where
  fd := (ops.reverse.findSome? fun op => op.fdBank? w).getD 0
  fe := (ops.reverse.findSome? fun op => op.feBank? w).getD 0
  latch := ((sinceReset ops).findSome? fun op => op.flips? w).getD false

theorem ChrWindow.ofHistory_concat (w : Fin 2) (ops : List Operation) (op : Operation) :
    ofHistory w (ops ++ [op]) = (ofHistory w ops).after w op := by
  unfold ofHistory after
  rw [sinceReset_concat]
  simp only [List.reverse_append, List.reverse_singleton, List.singleton_append,
    List.findSome?_cons, ChrWindow.mk.injEq]
  refine ⟨?_, ?_, ?_⟩
  · cases op.fdBank? w <;> rfl
  · cases op.feBank? w <;> rfl
  · cases op.isReset
    · simp only [Bool.false_eq_true, if_false, List.findSome?_cons]
      cases op.flips? w <;> rfl
    · rfl

/-- The windows stay as they are under an operation that is no reset, no write to one of their
registers and no fetch that flips a latch. -/
theorem ChrWindow.after_of_still (window : ChrWindow) {w : Fin 2} {op : Operation}
    (running : op.isReset = false) (fd : op.fdBank? w = none) (fe : op.feBank? w = none)
    (still : op.flips? w = none) : window.after w op = window := by
  simp [after, running, fd, fe, still]

/-! ### One operation -/

theorem ChrWindow.afterFetch_eq (window : ChrWindow) (address : UInt16) :
    window.afterFetch address =
      { window with latch := (fetchSide? address).getD window.latch } := by
  unfold afterFetch fetchSide?
  generalize address &&& 0x0FF0 = pattern
  split
  · rfl
  · rfl
  · rename_i not_fd not_fe
    rw [if_neg not_fd, if_neg not_fe]
    rfl

theorem lt_chrEnd_of_window {w : Fin 2} {address : UInt16} (there : address.toNat / 0x1000 = w) :
    address < chrEnd := by
  have window : w.val < 2 := w.isLt
  have below : address.toNat < 0x2000 := by omega
  exact below

/-- In pattern memory, bit 12 of an address tells the window. -/
theorem and_window_beq_zero {address : UInt16} (pattern : address < chrEnd) :
    (address &&& 0x1000 == 0) = decide (address.toNat / 0x1000 = 0) := by
  have below : address.toNat < 0x2000 := pattern
  have bit : address.toNat.testBit 12 = decide (address.toNat / 0x1000 ≠ 0) := by
    rw [Nat.testBit_eq_decide_div_mod_eq, decide_eq_decide]
    omega
  rw [and_beq_zero 12 rfl, bit, decide_not, Bool.not_not]

theorem windowAt_eq (b : Mmc2) {w : Fin 2} {address : UInt16}
    (there : address.toNat / 0x1000 = w) : b.windowAt address = b.window w := by
  have pattern := lt_chrEnd_of_window there
  unfold windowAt
  simp only [and_window_beq_zero pattern, there]
  match w with
  | 0 | 1 => rfl

/-- A read flips the latch of the window that it is in. -/
theorem window_fetch (b : Mmc2) {address : UInt16} (pattern : address < chrEnd) (w : Fin 2) :
    (b.fetch address).2.window w = (b.window w).after w (.chrRead address) := by
  have below : address.toNat < 0x2000 := pattern
  have place : address.toNat / 0x1000 < 2 := by omega
  unfold fetch
  simp only [and_window_beq_zero pattern, ChrWindow.afterFetch_eq, ChrWindow.after,
    Operation.fdBank?, Operation.feBank?, Operation.flips?, Operation.isReset]
  generalize address.toNat / 0x1000 = there at *
  interval_cases there <;> match w with | 0 | 1 => rfl

/-- A register is written. The page of its address tells which. -/
theorem window_writeRegister (b : Mmc2) {address : UInt16} (upper : 0x8000 ≤ address)
    (data : UInt8) (step : UInt64) (w : Fin 2) :
    (b.writeRegister address data).window w =
      (b.window w).after w (.cpuWrite address data step) := by
  have from_upper : 0x8000 ≤ address.toNat := upper
  have word : address.toNat < 0x10000 := address.toNat_lt
  have first : 0x8 ≤ address.toNat / 0x1000 := by omega
  have last : address.toNat / 0x1000 < 0x10 := by omega
  have below (page : Nat) (bound : UInt16) (aligned : bound.toNat = page * 0x1000) :
      address < bound ↔ address.toNat / 0x1000 < page := by
    rw [UInt16.lt_iff_toNat_lt, aligned]
    omega
  simp only [writeRegister, below 0xA 0xA000 rfl, below 0xB 0xB000 rfl, below 0xC 0xC000 rfl,
    below 0xD 0xD000 rfl, below 0xE 0xE000 rfl, below 0xF 0xF000 rfl, ChrWindow.after,
    Operation.fdBank?, Operation.feBank?, Operation.flips?, Operation.isReset]
  -- On each page, all questions about the address have one answer.
  generalize address.toNat / 0x1000 = page at *
  interval_cases page <;> match w with | 0 | 1 => rfl

/-- Every operation does to the two windows what it does to a window. -/
theorem exists_apply (b : Mmc2) (op : Operation) :
    ∃ b', Board.apply (.mmc2 b) op = .mmc2 b' ∧ b'.banks = b.banks ∧
      ∀ w, b'.window w = (b.window w).after w op := by
  cases op with
  | cpuWrite address data step =>
    simp only [Board.apply, Board.cpuWrite, Mmc2.cpuWrite]
    by_cases upper : 0x8000 ≤ address
    · refine ⟨b.writeRegister address data, by rw [if_pos upper], ?_,
        b.window_writeRegister upper data step⟩
      unfold writeRegister
      split_ifs <;> rfl
    · have lower : address.toNat < 0x8000 := UInt16.not_le.mp upper
      have still (w : Fin 2) (window : ChrWindow) :
          window.after w (.cpuWrite address data step) = window := by
        refine window.after_of_still rfl (if_neg ?_) (if_neg ?_) rfl <;> omega
      rw [if_neg upper]
      split
      · exact ⟨_, rfl, rfl, fun w => (still w _).symm⟩
      · exact ⟨b, rfl, rfl, fun w => (still w _).symm⟩
  | chrRead address =>
    simp only [Board.apply, chrRead]
    by_cases pattern : address < chrEnd
    · rw [if_neg (UInt16.not_le.mpr pattern)]
      refine ⟨_, rfl, ?_, b.window_fetch pattern⟩
      unfold fetch
      split <;> rfl
    · have still (w : Fin 2) : Operation.flips? w (.chrRead address) = none :=
        if_neg fun there => pattern (lt_chrEnd_of_window there)
      rw [if_pos (UInt16.not_lt.mp pattern)]
      exact ⟨b, rfl, rfl, fun w => ((b.window w).after_of_still rfl rfl rfl (still w)).symm⟩
  | reset => exact ⟨b.reset, rfl, rfl, Fin.forall_fin_two.mpr ⟨rfl, rfl⟩⟩
  | loadRam image => exact ⟨_, rfl, rfl, Fin.forall_fin_two.mpr ⟨rfl, rfl⟩⟩
  | cpuRead _ | chrWrite _ | scanline | clearIrq | setGate _ =>
    exact ⟨b, rfl, rfl, Fin.forall_fin_two.mpr ⟨rfl, rfl⟩⟩

/-- After a run the windows are what its history leaves in them. -/
theorem exists_run (counts : BankCounts) (ops : List Operation) :
    ∃ b : Mmc2, ops.foldl Board.apply (.mmc2 { banks := counts }) = .mmc2 b ∧ b.banks = counts ∧
      ∀ w, b.window w = .ofHistory w ops := by
  induction ops using List.reverseRecOn with
  | nil => exact ⟨_, rfl, rfl, Fin.forall_fin_two.mpr ⟨rfl, rfl⟩⟩
  | append_singleton ops op ih =>
    obtain ⟨b, run, banks, windows⟩ := ih
    obtain ⟨b', moved, banks', windows'⟩ := b.exists_apply op
    refine ⟨b', ?_, banks'.trans banks, fun w => ?_⟩
    · rw [List.foldl_concat, run, moved]
    · rw [ChrWindow.ofHistory_concat, windows', windows]

/-! ### Reads -/

/-- A read is refused if the number of banks is too large for a word, and else served from the bank
in force in its window. -/
theorem chrReadChecked_eq (b : Mmc2) {w : Fin 2} {address : UInt16}
    (there : address.toNat / 0x1000 = w) :
    (Board.mmc2 b).chrReadChecked address =
      if Checked.words64 ≤ 2 * b.banks.chr then .error .mulOverflow
      else .ok (some (b.chrOffset (b.window w) address),
        Board.apply (.mmc2 b) (.chrRead address)) := by
  have inside : ¬ chrEnd ≤ address := UInt16.not_le.mpr (lt_chrEnd_of_window there)
  simp only [chrReadChecked, chrReadProducts, Board.apply, chrRead, if_neg inside,
    Checked.afterProducts_singleton, b.fetch_fst, b.windowAt_eq there, Nat.mul_comm 2]

/-- **Reads are served by the latches.** Whatever was done to an MMC2 board since power-on, its two
windows hold what the history leaves in them: in the registers what was written to them last, and in
the latch the side of the last fetch of pattern FD or FE in the window since power-on or the last
reset. A read in a window is served from the register at that side, and changes the latch for later
reads alone. Only resets, and fetches of the two patterns in the window itself, change its latch. -/
theorem fetch_of_history (counts : BankCounts) (ops : List Operation) :
    ∃ b : Mmc2, ops.foldl Board.apply (.mmc2 { banks := counts }) = .mmc2 b ∧ ∀ w : Fin 2,
      let window := ChrWindow.ofHistory w ops
      b.window w = window ∧
      (∀ address : UInt16, address.toNat / 0x1000 = w →
        let bank := if window.latch then window.fe else window.fd
        let offset := bank.toNat % max (2 * counts.chr) 2 * 4096 + address.toNat % 4096
        (Board.mmc2 b).chrReadChecked address =
          if Checked.words64 ≤ 2 * counts.chr then .error .mulOverflow
          else .ok (some offset, Board.apply (.mmc2 b) (.chrRead address))) ∧
      ∀ op : Operation, op.isReset = false → op.flips? w = none →
        ∃ b', Board.apply (.mmc2 b) op = .mmc2 b' ∧ (b'.window w).latch = (b.window w).latch := by
  obtain ⟨b, run, rfl, windows⟩ := exists_run counts ops
  refine ⟨b, run, fun w => ⟨windows w, ?_, ?_⟩⟩
  · intro address there
    rw [b.chrReadChecked_eq there, windows w, chrOffset, Nat.mul_comm 2]
    rfl
  · intro op running still
    obtain ⟨b', moved, -, windows'⟩ := b.exists_apply op
    refine ⟨b', moved, ?_⟩
    rw [windows' w]
    simp [ChrWindow.after, running, still]

/-- The latch of the lower window is at FE, and the register there is written once more after the
fetch that flipped it. Fetches before the reset, in the other window and beyond pattern memory do
not count, and writes of the picture unit do not either. -/
theorem fetch_of_history_of_flips :
    let counts : BankCounts := ⟨4, 16, by decide⟩
    let ops : List Operation := [.cpuWrite 0xB000 0x03 0, .cpuWrite 0xC000 0x05 0, .chrRead 0x1FE8,
      .reset, .chrRead 0x0FE0, .chrRead 0x1FD0, .chrWrite 0x0FD0, .chrRead 0x2FD0,
      .cpuWrite 0xC123 0x27 0]
    (0x0FD3 : UInt16).toNat / 0x1000 = (0 : Fin 2) ∧ Operation.isReset (.chrWrite 0x0FD0) = false ∧
      Operation.flips? 0 (.chrWrite 0x0FD0) = none ∧
      ∃ b : Mmc2, ops.foldl Board.apply (.mmc2 { banks := counts }) = .mmc2 b ∧
        (Board.mmc2 b).chrReadChecked 0x0FD3 =
          .ok (some (7 * 4096 + 0x0FD3), Board.apply (.mmc2 b) (.chrRead 0x0FD3)) ∧
        ∃ b', Board.apply (.mmc2 b) (.chrWrite 0x0FD0) = .mmc2 b' ∧
          (b'.window 0).latch = (b.window 0).latch := by
  intro counts ops
  obtain ⟨b, run, windows⟩ := fetch_of_history counts ops
  obtain ⟨-, served, keeps⟩ := windows 0
  have left : ChrWindow.ofHistory 0 ops = ⟨0x03, 0x07, true⟩ := by decide
  refine ⟨by decide, rfl, rfl, b, run, ?_, keeps (.chrWrite 0x0FD0) rfl rfl⟩
  rw [served 0x0FD3 (by decide), left, if_neg (by decide)]
  rfl

end Mmc2

end Famicom.Board
