import Mathlib.Algebra.Group.Nat.Defs
import Famicom.Proofs.Audio.Tick

/-!
# The time of frame events

The frame sequencer is clocked in every sixth tick, so the number of ticks since power-on or reset
tells how far into its frame it is, and what the next tick makes it do.

## Main definitions

* `eventOfTick?` — the event of a tick, by the number of ticks before it
* `Synthesizer.IsAligned` — the frame sequencer has counted every sixth tick

## Main results

* `Synthesizer.IsAligned.frameEvent?_eq` — the event of the next tick, by the ticks so far
* `Synthesizer.IsAligned.of_isTick` — a tick keeps the count
* `eventOfTick?_eq_half_iff` — when half frames come
-/

namespace Famicom.Audio

open FrameSequencer (frameLength eventAt)

/-- The event of the tick that comes after a number of ticks, if it clocks the frame sequencer. -/
def eventOfTick? (ticks : Nat) : Option FrameEvent :=
  if ticks % 6 = 0 then some (eventAt (ticks / 6 % frameLength + 1)) else none

theorem eventAt_eq_half_iff {position : Nat} :
    eventAt position = .half ↔ position = 7457 ∨ position = frameLength := by
  unfold eventAt frameLength
  grind

/-- A half frame comes in the middle of a frame and at its end. -/
theorem eventOfTick?_eq_half_iff {ticks : Nat} :
    eventOfTick? ticks = some .half ↔
      ticks % 6 = 0 ∧ (ticks / 6 % 14916 = 7456 ∨ ticks / 6 % 14916 = 14915) := by
  unfold eventOfTick?
  split
  · rename_i due
    rw [Option.some.injEq, eventAt_eq_half_iff]
    unfold frameLength
    omega
  · rename_i idle
    simp [idle]

theorem mod_eq_zero_iff_toNat {ticks divisor : UInt64} :
    ticks % divisor = 0 ↔ ticks.toNat % divisor.toNat = 0 := by
  rw [← UInt64.toNat_inj, UInt64.toNat_mod]
  rfl

namespace Synthesizer

variable {s s' : Synthesizer}

/-- The frame sequencer has counted every sixth tick. -/
def IsAligned (s : Synthesizer) : Prop :=
  s.frame.position = (s.ticks.toNat + 5) / 6 % frameLength

theorem IsTick.toNat_ticks (h : IsTick s s') (room : s.ticks.toNat + 1 < 2 ^ 64) :
    s'.ticks.toNat = s.ticks.toNat + 1 := by
  rw [h.ticks, UInt64.toNat_add]
  exact Nat.mod_eq_of_lt room

namespace IsAligned

/-- The ticks so far tell the event of the next one. -/
theorem frameEvent?_eq (h : s.IsAligned) : s.frameEvent? = eventOfTick? s.ticks.toNat := by
  have sixth : s.ticks % 6 = 0 ↔ s.ticks.toNat % 6 = 0 := mod_eq_zero_iff_toNat
  unfold frameEvent? eventOfTick?
  by_cases due : s.ticks % 6 = 0
  · have whole := sixth.mp due
    rw [if_pos due, if_pos whole, FrameSequencer.clock, h]
    -- The five that round the count up make no difference at a multiple of six.
    have count : (s.ticks.toNat + 5) / 6 = s.ticks.toNat / 6 := by omega
    rw [count]
  · rw [if_neg due, if_neg fun whole => due (sixth.mpr whole)]

/-- A tick keeps the count. -/
theorem of_isTick (h : s.IsAligned) (tick : IsTick s s') (room : s.ticks.toNat + 1 < 2 ^ 64) :
    s'.IsAligned := by
  have sixth : s.ticks % 6 = 0 ↔ s.ticks.toNat % 6 = 0 := mod_eq_zero_iff_toNat
  unfold IsAligned at h ⊢
  rw [tick.toNat_ticks room, tick.frame]
  by_cases due : s.ticks % 6 = 0
  · have whole := sixth.mp due
    rw [if_pos due, FrameSequencer.clock, h]
    unfold frameLength
    dsimp only
    -- The sequencer goes on by one or, from its last position, to its first one.
    split <;> omega
  · have part : ¬ s.ticks.toNat % 6 = 0 := fun whole => due (sixth.mpr whole)
    rw [if_neg due, h]
    unfold frameLength
    omega

/-- Nothing but ticks and resets counts. -/
theorem of_eq (h : s.IsAligned) (frame : s'.frame = s.frame) (ticks : s'.ticks = s.ticks) :
    s'.IsAligned := by
  unfold IsAligned
  rw [frame, ticks]
  exact h

end IsAligned

theorem frame_write (s : Synthesizer) (address : UInt16) (data : UInt8) :
    (s.write address data).frame = s.frame := by
  obtain ⟨_, _, _, _, _, written⟩ := s.exists_write address data
  rw [written]

theorem ticks_write (s : Synthesizer) (address : UInt16) (data : UInt8) :
    (s.write address data).ticks = s.ticks := by
  obtain ⟨_, _, _, _, _, written⟩ := s.exists_write address data
  rw [written]

theorem IsStart.ticks_eq (h : s.IsStart) : s.ticks = 0 := by
  obtain ⟨switches, taps, rfl⟩ := h.exists_eq
  rfl

theorem IsStart.isAligned (h : s.IsStart) : s.IsAligned := by
  obtain ⟨switches, taps, rfl⟩ := h.exists_eq
  exact (by decide : 0 = ((0 : UInt64).toNat + 5) / 6 % frameLength)

end Synthesizer

end Famicom.Audio
