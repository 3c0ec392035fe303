import Famicom.Proofs.Audio.FrameTiming
import Famicom.Proofs.Audio.Registers
import Famicom.Proofs.Audio.SamplePlayback

/-!
# How long a sample byte waits

A byte in the buffer of the sample player is taken when the eight bits before it have been played.
No bit lasts longer than the longest period, so the buffer is empty again after that many ticks at
the latest, and a further byte can be asked for.

## Main definitions

* `DeltaModulation.IsTimed` — timer and bit counter are in their ranges
* `DeltaModulation.wait`, `Synthesizer.wait` — a bound for the processor clocks and for the ticks
  that a byte has still to wait

## Main results

* `Synthesizer.isTimed_of_run` — every unit keeps to the ranges
* `Synthesizer.wait_of_clock` — a tick is one tick less to wait
* `Synthesizer.buffer_eq_none_of_clocks` — after enough ticks the buffer is empty
-/

namespace Famicom.Audio

namespace DeltaModulation

/-- Timer and bit counter are in their ranges. -/
structure IsTimed (d : DeltaModulation) : Prop where
  counter_pos : 0 < d.timerCounter.toNat
  counter_le : d.timerCounter.toNat ≤ 428
  period_pos : 0 < d.timerPeriod.toNat
  period_le : d.timerPeriod.toNat ≤ 428
  bits_pos : 0 < d.bitsRemaining.toNat
  bits_le : d.bitsRemaining.toNat ≤ 8

/-- The processor clocks that a byte in the buffer has still to wait, if every bit took as long as
the longest. -/
def wait (d : DeltaModulation) : Nat :=
  if d.buffer = none then 0 else 428 * (d.bitsRemaining.toNat - 1) + d.timerCounter.toNat

theorem periods_bounds (index : Fin 16) :
    0 < (periods.get index).toNat ∧ (periods.get index).toNat ≤ 428 := by
  revert index
  decide

variable {d d' : DeltaModulation}

/-- The voice with its timer started again. -/
def reloaded (d : DeltaModulation) : DeltaModulation :=
  { d with timerCounter := d.timerPeriod }

/-- What a processor clock does, as long as bits remain: it counts down, or it plays a bit, which
may be the last one. -/
theorem clock_cases (bits : d.bitsRemaining ≠ 0) (clocked : d.clock = .ok d') :
    (1 < d.timerCounter.toNat ∧ d' = { d with timerCounter := d.timerCounter - 1 }) ∨
      (d.bitsRemaining ≠ 1 ∧ d' = d.reloaded.shifted) ∨
      (d.bitsRemaining = 1 ∧ d' = d.reloaded.shifted.takeBuffer) := by
  have out : d.isDue = true ↔ d.timerCounter.toNat ≤ 1 := by
    rw [isDue, decide_eq_true_iff, UInt16.le_iff_toNat_le]
    rfl
  rw [clock_eq] at clocked
  split at clocked
  · have played : d.reloaded.playBit = .ok d' := clocked
    rw [playBit_eq (d := d.reloaded) bits] at played
    obtain rfl := Except.ok.inj played
    by_cases last : d.bitsRemaining = 1
    · exact .inr (.inr ⟨last, if_pos last⟩)
    · exact .inr (.inl ⟨last, if_neg last⟩)
  · rename_i running
    rw [out] at running
    exact .inl ⟨by omega, (Except.ok.inj clocked).symm⟩

namespace IsTimed

theorem initial : IsTimed {} := by
  constructor <;> decide

theorem bits_ne_zero (h : d.IsTimed) : d.bitsRemaining ≠ 0 := by
  have positive := h.bits_pos
  rintro zero
  rw [zero] at positive
  exact absurd positive (by decide)

theorem write (h : d.IsTimed) (register : Register) (data : UInt8) :
    (d.write register data).IsTimed := by
  cases register with
  | control =>
    obtain ⟨positive, le⟩ := periods_bounds (wrapTo data.toNat)
    exact ⟨h.counter_pos, h.counter_le, positive, le, h.bits_pos, h.bits_le⟩
  | level | address | length =>
    exact ⟨h.counter_pos, h.counter_le, h.period_pos, h.period_le, h.bits_pos, h.bits_le⟩

theorem setEnabled (h : d.IsTimed) (enabled : Bool) : (d.setEnabled enabled).IsTimed := by
  obtain ⟨_, _, set⟩ := d.exists_setEnabled enabled
  rw [set]
  exact ⟨h.counter_pos, h.counter_le, h.period_pos, h.period_le, h.bits_pos, h.bits_le⟩

theorem deliver (h : d.IsTimed) (byte : UInt8) : (d.deliver byte).IsTimed := by
  obtain ⟨_, _, _, delivered⟩ := d.exists_deliver byte
  rw [delivered]
  exact ⟨h.counter_pos, h.counter_le, h.period_pos, h.period_le, h.bits_pos, h.bits_le⟩

/-- A bit that is not the last one leaves bits. -/
theorem toNat_bitsRemaining_shifted (h : d.IsTimed) :
    d.reloaded.shifted.bitsRemaining.toNat = d.bitsRemaining.toNat - 1 :=
  Nat.eq_sub_of_add_eq (Checked.toNat_pred_of_ne h.bits_ne_zero)

theorem toNat_bitsRemaining_ne_one (last : d.bitsRemaining ≠ 1) : d.bitsRemaining.toNat ≠ 1 :=
  fun one => last (UInt8.toNat_inj.mp one)

theorem toNat_pred_timerCounter (running : 1 < d.timerCounter.toNat) :
    (d.timerCounter - 1).toNat = d.timerCounter.toNat - 1 :=
  UInt16.toNat_sub_of_le _ _ (UInt16.le_iff_toNat_le.mpr (Nat.le_of_lt running))

theorem takeBuffer (h : d.IsTimed) : d.reloaded.shifted.takeBuffer.IsTimed := by
  obtain ⟨buffer, shifter, silence, taken⟩ := d.reloaded.shifted.exists_takeBuffer
  rw [taken]
  exact ⟨h.period_pos, h.period_le, h.period_pos, h.period_le,
    (by decide : 0 < (8 : UInt8).toNat), (by decide : (8 : UInt8).toNat ≤ 8)⟩

theorem clock (h : d.IsTimed) (clocked : d.clock = .ok d') : d'.IsTimed := by
  obtain ⟨running, rfl⟩ | ⟨several, rfl⟩ | ⟨-, rfl⟩ := clock_cases h.bits_ne_zero clocked
  · have counted := toNat_pred_timerCounter running
    have le := h.counter_le
    refine ⟨?_, ?_, h.period_pos, h.period_le, h.bits_pos, h.bits_le⟩ <;> dsimp only <;> omega
  · have bits := h.toNat_bitsRemaining_shifted
    have several := toNat_bitsRemaining_ne_one several
    have positive := h.bits_pos
    have le := h.bits_le
    exact ⟨h.period_pos, h.period_le, h.period_pos, h.period_le, by omega, by omega⟩
  · exact h.takeBuffer

end IsTimed

theorem IsTimed.tick (h : d.IsTimed) {due : Bool} (ticked : d.tick due = .ok d') : d'.IsTimed := by
  cases due with
  | false => exact Except.ok.inj ticked ▸ h
  | true => exact h.clock ticked

/-- A processor clock is one clock less to wait. -/
theorem wait_of_clock (h : d.IsTimed) (clocked : d.clock = .ok d') : d'.wait ≤ d.wait - 1 := by
  obtain ⟨running, rfl⟩ | ⟨several, rfl⟩ | ⟨-, rfl⟩ := clock_cases h.bits_ne_zero clocked
  · have counted := IsTimed.toNat_pred_timerCounter running
    unfold wait
    dsimp only
    split <;> omega
  · -- The next bit takes no longer than the longest, and one bit less is to come.
    have bits := h.toNat_bitsRemaining_shifted
    have several := IsTimed.toNat_bitsRemaining_ne_one several
    have positive := h.bits_pos
    have counter := h.counter_pos
    have period : d.reloaded.shifted.timerCounter.toNat ≤ 428 := h.period_le
    unfold wait
    rw [bits, show d.reloaded.shifted.buffer = d.buffer from rfl]
    split <;> omega
  · rw [wait, if_pos (buffer_takeBuffer _)]
    exact Nat.zero_le _

theorem wait_le (h : d.IsTimed) : d.wait ≤ 3424 := by
  have counter := h.counter_le
  have bits := h.bits_le
  unfold wait
  split <;> omega

/-- No byte waits for nothing. -/
theorem wait_pos (h : d.IsTimed) (full : d.buffer ≠ none) : 0 < d.wait := by
  have counter := h.counter_pos
  rw [wait, if_neg full]
  omega

theorem wait_of_empty (empty : d.buffer = none) : d.wait = 0 :=
  if_pos empty

end DeltaModulation

namespace Synthesizer

variable {s s' : Synthesizer}

/-- Timer and bit counter of a unit stay in their ranges. -/
theorem isTimed_of_run {start : Synthesizer} (begun : start.IsStart) {ops : List Operation}
    (run : ops.foldlM apply start = .ok s) : s.dmc.IsTimed :=
  dmc_holds_of_run .initial (fun register data timed => timed.write register data)
    (fun enabled timed => timed.setEnabled enabled) (fun _ timed => timed.deliver _)
    (fun timed ticked => timed.tick ticked) begun run

theorem isTimed_of_clocks (timed : s.dmc.IsTimed) {n : Nat}
    (ran : (List.replicate n Operation.clock).foldlM apply s = .ok s') : s'.dmc.IsTimed :=
  holds_of_replicate (P := fun s => s.dmc.IsTimed)
    (fun timed ticked => timed.tick (clock_eq_ok_iff.mp ticked).dmc) timed ran

/-- The ticks that a byte in the buffer has still to wait, up to the next processor clock and then
for those that the voice waits. -/
def wait (s : Synthesizer) : Nat :=
  3 * s.dmc.wait + (3 - s.ticks.toNat % 3) % 3

theorem wait_ge (timed : s.dmc.IsTimed) (full : s.dmc.buffer ≠ none) : 3 ≤ s.wait := by
  have positive := DeltaModulation.wait_pos timed full
  unfold wait
  omega

/-- A tick is one tick less to wait. -/
theorem wait_of_clock (timed : s.dmc.IsTimed) (clocked : s.clock = .ok s')
    (full : s'.dmc.buffer ≠ none) : s'.wait + 1 ≤ s.wait := by
  have tick := clock_eq_ok_iff.mp clocked
  have left := DeltaModulation.wait_pos (timed.tick tick.dmc) full
  have third : s.ticks % 3 = 0 ↔ s.ticks.toNat % 3 = 0 := mod_eq_zero_iff_toNat
  have count : s'.ticks.toNat = (s.ticks.toNat + 1) % 2 ^ 64 := by
    rw [tick.ticks, UInt64.toNat_add]
    rfl
  have word := s.ticks.toNat_lt
  have voice := tick.dmc
  unfold wait
  cases due : s.clocksDmc with
  | true =>
    -- The count goes on from zero after its last value, which is due as well.
    have whole := third.mp (of_decide_eq_true due)
    rw [due] at voice
    have less := DeltaModulation.wait_of_clock timed voice
    omega
  | false =>
    have part : ¬ s.ticks.toNat % 3 = 0 := fun whole => of_decide_eq_false due (third.mpr whole)
    rw [due] at voice
    obtain same : s.dmc = s'.dmc := Except.ok.inj voice
    have next : s'.ticks.toNat = s.ticks.toNat + 1 := by omega
    rw [← same, next]
    omega

theorem wait_of_clocks (timed : s.dmc.IsTimed) {n : Nat}
    (ran : (List.replicate n Operation.clock).foldlM apply s = .ok s')
    (full : s'.dmc.buffer ≠ none) : s'.wait + n ≤ s.wait := by
  have least := wait_ge (isTimed_of_clocks timed ran) full
  induction n generalizing s with
  | zero =>
    obtain rfl := foldlM_nil_eq_ok.mp ran
    exact Nat.le_refl _
  | succ n ih =>
    obtain ⟨middle, first, rest⟩ := foldlM_cons_eq_ok.mp ran
    have waited := ih (timed.tick (clock_eq_ok_iff.mp first).dmc) rest
    -- Had the buffer been empty after the first tick, it would still be.
    have full' : middle.dmc.buffer ≠ none := by
      intro empty
      have done : middle.wait ≤ 2 := by
        rw [wait, DeltaModulation.wait_of_empty empty]
        omega
      omega
    have less := wait_of_clock timed first full'
    omega

/-- After enough ticks the buffer is empty. -/
theorem buffer_eq_none_of_clocks (timed : s.dmc.IsTimed) {n : Nat} (enough : 10272 ≤ n)
    (ran : (List.replicate n Operation.clock).foldlM apply s = .ok s') : s'.dmc.buffer = none := by
  by_contra full
  have waited := wait_of_clocks timed ran full
  have least := wait_ge (isTimed_of_clocks timed ran) full
  have most : s.wait ≤ 10274 := by
    have voice := DeltaModulation.wait_le timed
    unfold wait
    omega
  omega

end Synthesizer

end Famicom.Audio
