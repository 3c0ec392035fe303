import Mathlib.Data.List.Basic
import Mathlib.Data.List.Induction
import Famicom.Proofs.Cartridge.RegisterBits
import Famicom.Proofs.Cartridge.Run

/-!
# What is done to an MMC3 board

Of all that can be done to an MMC3 board, nine things move its registers, its layout or its counter
of scanlines. Each operation is one of them, or none, and what it does to the board follows from
that alone.

## Main definitions

* `Mmc3.Event`, `Operation.onMmc3` — what an operation is to the board
* `Mmc3.Event.programs` — the events that find the layout anew
* `Mmc3.Registers.after`, `Mmc3.Layout.after`, `Mmc3.LineCounter.after` — what an event does
* `Mmc3.Follows` — a board has moved by an event

## Main results

* `Mmc3.exists_apply` — every operation moves the board by its event
* `Mmc3.exists_run` — a board keeps what every event keeps, of the history since the last reset
-/

namespace Famicom.Board

namespace Mmc3

/-- What can happen to the registers, the layout and the counter of scanlines. -/
inductive Event where
  /-- The target and the modes are chosen. -/
  | select (data : UInt8)
  /-- A bank number goes into the target. -/
  | put (data : UInt8)
  /-- The reload value of the counter is set. -/
  | reload (data : UInt8)
  /-- The counter goes to zero. -/
  | restart
  /-- Interrupts are disabled, and a pending one is withdrawn. -/
  | disable
  /-- Interrupts are enabled. -/
  | enable
  | scanline
  /-- A pending interrupt is withdrawn. -/
  | acknowledge
  | reset
  | other
  deriving DecidableEq, Repr

end Mmc3

/-- What an operation is to an MMC3 board. -/
def Operation.onMmc3 : Operation → Mmc3.Event
  | .cpuWrite address data _ =>
    -- Three of the eighths in the upper half of memory have a register at even addresses and
    -- another one at odd addresses.
    match address.toNat / 0x2000, address.toNat % 2 with
    | 4, 0 => .select data
    | 4, _ => .put data
    | 6, 0 => .reload data
    | 6, _ => .restart
    | 7, 0 => .disable
    | 7, _ => .enable
    | _, _ => .other
  | .scanline => .scanline
  | .clearIrq => .acknowledge
  | .reset => .reset
  | .cpuRead _ | .chrRead _ | .chrWrite _ | .setGate _ | .loadRam _ => .other

theorem Operation.isReset_eq (op : Operation) : op.isReset = decide (op.onMmc3 = .reset) := by
  cases op with
  | cpuWrite address data step =>
    have running : onMmc3 (.cpuWrite address data step) ≠ .reset := by
      unfold onMmc3
      dsimp only
      split <;> nofun
    simp [isReset, running]
  | _ => rfl

namespace Mmc3

/-- The registers after an event. -/
def Registers.after (r : Registers) : Event → Registers
  | .select data => r.select data
  | .put data => r.put data
  | .reset => {}
  | .reload _ | .restart | .disable | .enable | .scanline | .acknowledge | .other => r

/-- The layout after an event that leaves these registers behind. -/
def Layout.after (l : Layout) (banks : BankCounts) (r : Registers) : Event → Layout
  | .select _ | .put _ => .ofRegisters banks r
  | .reset => .initial banks
  | .reload _ | .restart | .disable | .enable | .scanline | .acknowledge | .other => l

/-- The counter of scanlines after an event. -/
def LineCounter.after (c : LineCounter) : Event → LineCounter
  | .reload data => { c with reload := data }
  | .restart => { c with counter := 0 }
  | .disable => { c with enabled := false, active := false }
  | .enable => { c with enabled := true }
  | .scanline => c.scanline
  | .acknowledge => { c with active := false }
  | .reset => {}
  | .select _ | .put _ | .other => c

/-- The event is a write to a bank register or a choice of target and modes. -/
def Event.programs : Event → Bool
  | .select _ | .put _ => true
  | _ => false

/-- Registers and layout change by being programmed or reset, and else not at all. -/
theorem after_of_not_programs {e : Event} (idle : e.programs = false) (running : e ≠ .reset)
    (r : Registers) (l : Layout) (banks : BankCounts) :
    r.after e = r ∧ l.after banks r e = l := by
  cases e with
  | select _ | put _ => cases idle
  | reset => exact absurd rfl running
  | reload _ | restart | disable | enable | scanline | acknowledge | other => exact ⟨rfl, rfl⟩

/-- A board has moved by an event. -/
structure Follows (b b' : Mmc3) (e : Event) : Prop where
  banks : b'.banks = b.banks
  registers : b'.registers = b.registers.after e
  layout : b'.layout = b.layout.after b.banks (b.registers.after e) e
  lines : b'.lines = b.lines.after e

/-- A register is written. The eighth and the parity of its address tell which. -/
theorem follows_writeRegister (b : Mmc3) {address : UInt16} (upper : 0x8000 ≤ address)
    (data : UInt8) (step : UInt64) :
    Follows b (b.writeRegister address data) (Operation.onMmc3 (.cpuWrite address data step)) := by
  have parity := and_one_beq_zero address
  unfold writeRegister Operation.onMmc3
  obtain ⟨first, eighth⟩ | ⟨not_first, ⟨second, eighth⟩ |
    ⟨not_second, ⟨third, eighth⟩ | ⟨not_third, eighth⟩⟩⟩ := eighth_cases upper <;>
      obtain even | odd := Nat.mod_two_eq_zero_or_one address.toNat <;>
        simp [*] <;> exact ⟨rfl, rfl, rfl, rfl⟩

/-- There are no registers in the lower half of memory. -/
theorem onMmc3_of_lower {address : UInt16} (lower : ¬ 0x8000 ≤ address) (data : UInt8)
    (step : UInt64) : Operation.onMmc3 (.cpuWrite address data step) = .other := by
  have below : address.toNat < 0x8000 := UInt16.not_le.mp lower
  have small : address.toNat / 0x2000 < 4 := by omega
  match eighth : address.toNat / 0x2000, small with
  | 0, _ | 1, _ | 2, _ | 3, _ => simp [Operation.onMmc3, eighth]

theorem Follows.other (b : Mmc3) (ram : Block) : Follows b { b with ram } .other :=
  ⟨rfl, rfl, rfl, rfl⟩

/-- Every operation moves the board by its event. -/
theorem exists_apply (b : Mmc3) (op : Operation) :
    ∃ b', Board.apply (.mmc3 b) op = .mmc3 b' ∧ Follows b b' op.onMmc3 := by
  cases op with
  | cpuWrite address data step =>
    simp only [Board.apply, Board.cpuWrite, Mmc3.cpuWrite]
    by_cases upper : 0x8000 ≤ address
    · exact ⟨_, by rw [if_pos upper], b.follows_writeRegister upper data step⟩
    · rw [onMmc3_of_lower upper, if_neg upper]
      split
      · exact ⟨_, rfl, .other b _⟩
      · exact ⟨b, rfl, .other b b.ram⟩
  | chrRead address =>
    refine ⟨b, ?_, .other b b.ram⟩
    simp only [Board.apply, Board.chrRead]
    split <;> rfl
  | loadRam image => exact ⟨_, rfl, .other b _⟩
  | scanline => exact ⟨b.scanline, rfl, rfl, rfl, rfl, rfl⟩
  | clearIrq => exact ⟨b.clearIrq, rfl, rfl, rfl, rfl, rfl⟩
  | reset => exact ⟨b.reset, rfl, rfl, rfl, rfl, rfl⟩
  | cpuRead _ | chrWrite _ | setGate _ => exact ⟨b, rfl, .other b b.ram⟩

/-- A relation between boards and what was done since the last reset holds after every run, if it
holds at power-on and every operation keeps it. -/
theorem exists_run {R : Mmc3 → List Operation → Prop} {counts : BankCounts}
    (initial : R (.initial counts) [])
    (step : ∀ {b b' : Mmc3} {recent : List Operation} {op : Operation}, R b recent →
      Follows b b' op.onMmc3 → R b' (if op.isReset then [] else op :: recent))
    (ops : List Operation) :
    ∃ b, ops.foldl Board.apply (.mmc3 (.initial counts)) = .mmc3 b ∧ R b (sinceReset ops) := by
  induction ops using List.reverseRecOn with
  | nil => exact ⟨_, rfl, initial⟩
  | append_singleton ops op ih =>
    obtain ⟨b, run, related⟩ := ih
    obtain ⟨b', moved, follows⟩ := b.exists_apply op
    refine ⟨b', ?_, ?_⟩
    · rw [List.foldl_concat, run, moved]
    · rw [sinceReset_concat]
      exact step related follows

end Mmc3

end Famicom.Board
