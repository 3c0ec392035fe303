import Famicom.Arithmetic.Checked
import Famicom.Audio.Envelope
import Famicom.Proofs.Audio.Divider

/-!
# The decay of an envelope

An envelope that is started goes to its highest level, and down by one level each time its divider
runs out. At zero it stays, or begins again at the highest level if it repeats. The volume is the
period of the divider, and it is also what is heard while the volume is constant; but whether it is
constant makes no difference to the decay, and may change at any time.

## Main definitions

* `Envelope.checkedClock` — a clock that fails where a difference is below zero
* `Envelope.run` — clocks in a row
* `Envelope.levelAfter` — the level, by how often the divider has run out
* `Envelope.HasDecayed` — where an envelope is in its decay

## Main results

* `Envelope.checkedClock_eq` — no difference is below zero
* `Envelope.HasDecayed.clock`, `Envelope.HasDecayed.run` — one clock, and every run
* `Envelope.decay_of_start` — divider, level and volume after any number of clocks
-/

namespace Famicom.Audio.Envelope

/-! ### Differences -/

/-- One clock, which fails if a difference is below zero. -/
def checkedClock (e : Envelope) (looping : Bool) : Except Fault Envelope := do
  let e ←
    if e.start then
      pure { e with start := false, decayCount := 15, dividerCount := e.volume }
    else if e.dividerCount = 0 then do
      let decayCount ←
        if e.decayCount = 0 then pure (if looping then 15 else 0)
        else Checked.pred8 e.decayCount
      pure { e with dividerCount := e.volume, decayCount }
    else do
      let dividerCount ← Checked.pred8 e.dividerCount
      pure { e with dividerCount }
  pure { e with output := if e.disable then e.volume else e.decayCount }

/-- Divider and level are counted down only from above zero. -/
theorem checkedClock_eq (e : Envelope) (looping : Bool) :
    e.checkedClock looping = .ok (e.clock looping) := by
  unfold checkedClock clock advance
  by_cases start : e.start = true
  · simp [start, bind, Except.bind, pure, Except.pure]
  · by_cases out : e.dividerCount = 0
    · by_cases low : e.decayCount = 0
      · simp [start, out, low, bind, Except.bind, pure, Except.pure]
      · simp [start, out, low, Checked.pred8_of_ne low, bind, Except.bind, pure, Except.pure]
    · simp [start, out, Checked.pred8_of_ne out, bind, Except.bind, pure, Except.pure]

/-! ### Decay -/

/-- The level of an envelope whose divider has run out a number of times since its start. -/
def levelAfter (looping : Bool) (times : Nat) : Nat :=
  if looping then 15 - times % 16 else 15 - times

theorem levelAfter_succ (looping : Bool) (times : Nat) :
    levelAfter looping (times + 1) =
      if levelAfter looping times = 0 then (if looping then 15 else 0)
      else levelAfter looping times - 1 := by
  unfold levelAfter
  cases looping with
  | true =>
    rw [if_pos rfl, if_pos rfl, if_pos rfl]
    split <;> omega
  | false =>
    rw [if_neg Bool.false_ne_true, if_neg Bool.false_ne_true, if_neg Bool.false_ne_true]
    split <;> omega

/-- An envelope of a volume is where its decay is after a number of clocks. -/
structure HasDecayed (volume : UInt8) (looping : Bool) (n : Nat) (e : Envelope) : Prop where
  started : e.start = false
  volume_eq : e.volume = volume
  level : ∃ times, DividerCount volume.toNat volume.toNat n times e.dividerCount.toNat ∧
    e.decayCount.toNat = levelAfter looping times

/-- Clocks in a row, before each of which the constant volume is switched on or off. -/
def run (looping : Bool) (switches : List Bool) (e : Envelope) : Envelope :=
  switches.foldl (fun e disable => { e with disable }.clock looping) e

namespace HasDecayed

variable {e : Envelope} {volume : UInt8} {looping : Bool} {n : Nat}

/-- The clock that starts an envelope begins its decay. -/
theorem of_start (starts : e.start = true) (looping : Bool) :
    HasDecayed e.volume looping 0 (e.clock looping) := by
  have begun : e.advance looping =
      { e with start := false, decayCount := 15, dividerCount := e.volume } := if_pos starts
  unfold clock
  rw [begun]
  exact ⟨rfl, rfl, 0, .begin .., by cases looping <;> rfl⟩

theorem switch (h : HasDecayed volume looping n e) (disable : Bool) :
    HasDecayed volume looping n { e with disable } :=
  ⟨h.started, h.volume_eq, h.level⟩

theorem clock (h : HasDecayed volume looping n e) :
    HasDecayed volume looping (n + 1) (e.clock looping) := by
  obtain ⟨times, divider, level⟩ := h.level
  have running : ¬ e.start = true := by simp [h.started]
  by_cases out : e.dividerCount = 0
  · -- The divider begins again, and the level goes down or around.
    have moved : e.advance looping =
        { e with
          dividerCount := e.volume
          decayCount := if e.decayCount = 0 then (if looping then 15 else 0)
            else e.decayCount - 1 } := by
      rw [advance, if_neg running, if_pos out]
    have zero : e.decayCount = 0 ↔ levelAfter looping times = 0 := by
      rw [← UInt8.toNat_inj, level]
      rfl
    rw [out] at divider
    rw [Envelope.clock, moved]
    refine ⟨h.started, h.volume_eq, times + 1, h.volume_eq ▸ divider.again, ?_⟩
    rw [levelAfter_succ]
    by_cases low : e.decayCount = 0
    · rw [if_pos (zero.mp low)]
      simp only [low, if_true]
      cases looping <;> rfl
    · have pred := Checked.toNat_pred_of_ne low
      rw [if_neg (mt zero.mpr low)]
      simp only [low, if_false]
      omega
  · have counted : e.advance looping = { e with dividerCount := e.dividerCount - 1 } := by
      rw [advance, if_neg running, if_neg out]
    rw [← Checked.toNat_pred_of_ne out] at divider
    rw [Envelope.clock, counted]
    exact ⟨h.started, h.volume_eq, times, divider.down, level⟩

theorem run (h : HasDecayed volume looping n e) (switches : List Bool) :
    HasDecayed volume looping (n + switches.length) (e.run looping switches) := by
  induction switches generalizing e n with
  | nil => exact h
  | cons disable switches ih =>
    have next := ih (h.switch disable).clock
    rw [List.length_cons, Nat.add_comm switches.length, ← Nat.add_assoc]
    exact next

end HasDecayed

/-- A clock leaves the settings alone, and what is heard after it is the constant volume or the
level. -/
theorem heard_clock (e : Envelope) (looping : Bool) :
    (e.clock looping).volume = e.volume ∧ (e.clock looping).disable = e.disable ∧
      (e.clock looping).output =
        if e.disable then e.volume else (e.clock looping).decayCount := by
  have kept : (e.advance looping).volume = e.volume ∧ (e.advance looping).disable = e.disable := by
    unfold advance
    split
    · exact ⟨rfl, rfl⟩
    · split <;> exact ⟨rfl, rfl⟩
  unfold clock
  simp [kept]

theorem run_cons (looping disable : Bool) (switches : List Bool) (e : Envelope) :
    e.run looping (disable :: switches) =
      ({ e with disable }.clock looping).run looping switches :=
  rfl

/-- What is heard after a run is told by its last switch. -/
theorem heard_run (looping disable : Bool) (switches : List Bool) (e : Envelope) :
    (e.run looping (disable :: switches)).output =
      if switches.getLastD disable then e.volume
      else (e.run looping (disable :: switches)).decayCount := by
  induction switches generalizing e disable with
  | nil => exact ({ e with disable }.heard_clock looping).2.2
  | cons next switches ih =>
    have volume := ({ e with disable }.heard_clock looping).1
    rw [run_cons, List.getLastD_cons, ih, volume]

/-- **An envelope decays in time.** Start an envelope, whatever else it holds, and clock it, with
its volume and repetition left alone and the constant volume switched on or off before each clock.
The first clock sets the level to 15. A number of clocks later the divider has run out once in each
of its periods, which are longer by one than the volume, and has counted down what is over. Each
time the level has gone down by one, around from zero to 15 if the envelope repeats, and down to
zero and no further if it does not. What is heard is the volume if that was constant in the last
clock, and the level if it was not. No clock of any envelope makes a difference below zero. -/
theorem decay_of_start (e : Envelope) (starts : e.start = true) (looping disable : Bool)
    (switches : List Bool) :
    let v := e.volume.toNat
    let n := switches.length
    let last := e.run looping (disable :: switches)
    (e.run looping [disable]).decayCount = 15 ∧
      last.decayCount.toNat =
        (if looping then 15 - n / (v + 1) % 16 else 15 - n / (v + 1)) ∧
      last.dividerCount.toNat = v - n % (v + 1) ∧
      last.output = (if switches.getLastD disable then e.volume else last.decayCount) ∧
      ∀ (other : Envelope) (repeats : Bool),
        other.checkedClock repeats = .ok (other.clock repeats) := by
  intro v n last
  have begun : HasDecayed e.volume looping 0 (e.run looping [disable]) :=
    .of_start (e := { e with disable }) starts looping
  obtain ⟨times, none_passed, level⟩ := begun.level
  obtain ⟨times', passed, level'⟩ := (begun.run switches).level
  rw [Nat.zero_add] at passed
  refine ⟨?_, ?_, passed.of_top.2, e.heard_run looping disable switches, checkedClock_eq⟩
  · rw [none_passed.of_top.1, Nat.zero_div] at level
    exact UInt8.toNat_inj.mp (level.trans (by cases looping <;> rfl))
  · rw [passed.of_top.1] at level'
    exact level'

/-- An envelope that repeats is at zero just before its divider runs out for the sixteenth time, and
at 15 again with the next clock. -/
theorem decay_of_start_of_repeat :
    let e : Envelope := { start := true, volume := 2, dividerCount := 7, decayCount := 9 }
    (e.run true (false :: List.replicate 47 false)).decayCount.toNat = 0 ∧
      (e.run true (false :: List.replicate 47 false)).dividerCount.toNat = 0 ∧
      (e.run true (false :: List.replicate 48 false)).decayCount.toNat = 15 := by
  intro e
  obtain ⟨-, low, out, -⟩ := decay_of_start e rfl true false (List.replicate 47 false)
  obtain ⟨-, high, -⟩ := decay_of_start e rfl true false (List.replicate 48 false)
  rw [List.length_replicate] at low out high
  exact ⟨low.trans (by decide), out.trans (by decide), high.trans (by decide)⟩

end Famicom.Audio.Envelope
