import Mathlib.Algebra.Group.Nat.Defs
import Famicom.Proofs.Audio.Tick

/-!
# Sweeps in a tick

A sweep that holds change and mute of the period in force never moves it out of range. A register
write makes both stale until the next tick, so a half frame right after one may move the period to
anything that fits in a word.

## Main definitions

* `Sweep.goal`, `Sweep.next` — the period that an update leads to, as an exact number
* `Sweep.IsTracked` — change and mute are those of a period
* `Pulse.HasMoved` — what a tick does to period and sweep, but for change and mute
* `Pulse.InRange` — period and change are eleven bits long
* `Pulse.Overshoots` — the next half frame leads out of range
* `Pulse.AwaitsDoubling` — a write of the sweep register right before a half frame doubles the
  period

## Main results

* `Pulse.InRange.exists_tick`, `Pulse.InRange.of_tick` — a tick of a voice in range
* `Pulse.not_overshoots_of_isTracked` — a tracked sweep does not lead out of range
* `Pulse.AwaitsDoubling.exists_double` — a period that doubles
-/

namespace Famicom.Audio

namespace Sweep

/-- The period that the change found last leads to, as an exact number. -/
def goal (s : Sweep) (period : UInt16) (onesComplement : Bool) : Nat :=
  if s.down then period.toNat - (s.change.toNat + if onesComplement then 1 else 0)
  else period.toNat + s.change.toNat

/-- Change and mute are those of a period and the settings in force. -/
structure IsTracked (s : Sweep) (period : UInt16) (onesComplement : Bool) : Prop where
  change_eq : s.change.toNat = period.toNat / 2 ^ s.shift.toNat
  mute_eq : s.mute = decide (period.toNat < 8 ∨ 0x7FF < s.goal period onesComplement)

theorem exists_target? {s : Sweep} {period : UInt16} (onesComplement : Bool)
    (fits : period.toNat + s.change.toNat + 1 < 65536) :
    ∃ target, s.target? period onesComplement = .ok target ∧
      target.toNat = s.goal period onesComplement := by
  cases down : s.down with
  | false =>
    refine ⟨period + s.change, ?_, ?_⟩
    · rw [target?, down]
      exact Checked.add16_of_lt (by omega)
    · rw [goal, down, UInt16.toNat_add]
      simp only [Bool.false_eq_true, if_false]
      omega
  | true =>
    -- The first voice takes off one more than the change, and no voice goes below zero.
    obtain ⟨extra, found, small⟩ : ∃ extra : UInt16,
        (if onesComplement then 1 else 0) = extra ∧
          extra.toNat = if onesComplement then 1 else 0 := by
      cases onesComplement <;> exact ⟨_, rfl, rfl⟩
    have sum : (s.change + extra).toNat = s.change.toNat + extra.toNat := by
      rw [UInt16.toNat_add]
      split at small <;> omega
    refine ⟨if period < s.change + extra then 0 else period - (s.change + extra), ?_, ?_⟩
    · rw [target?, down, if_pos rfl, found, Checked.add16_of_lt (by split at small <;> omega)]
      rfl
    · rw [goal, down, if_pos rfl, ← small, ← sum]
      split
      · rename_i below
        rw [UInt16.lt_iff_toNat_lt] at below
        simp only [UInt16.toNat_zero]
        omega
      · rename_i above
        rw [UInt16.lt_iff_toNat_lt] at above
        rw [UInt16.toNat_sub_of_le]
        rw [UInt16.le_iff_toNat_le]
        omega

theorem isOutOfRange_eq {s : Sweep} (period : UInt16) (onesComplement : Bool)
    (fits : period.toNat + s.change.toNat + 1 < 65536) :
    s.isOutOfRange period onesComplement =
      .ok (decide (period.toNat < 8 ∨ 0x7FF < s.goal period onesComplement)) := by
  have short : period < shortestPeriod ↔ period.toNat < 8 := UInt16.lt_iff_toNat_lt
  obtain ⟨target, found, value⟩ := exists_target? onesComplement fits
  have long : longestPeriod < target ↔ 0x7FF < s.goal period onesComplement := by
    rw [UInt16.lt_iff_toNat_lt, value]
    rfl
  unfold isOutOfRange
  by_cases below : period < shortestPeriod
  · simp [below, short.mp below, pure_eq_ok]
  · have above : ¬ period.toNat < 8 := fun h => below (short.mpr h)
    simp [below, above, found, long, bind, Except.bind, pure_eq_ok]

/-- Finding change and mute again changes nothing else. -/
theorem exists_track {s : Sweep} (period : UInt16) (onesComplement : Bool)
    (shift : s.shift.toNat < 16)
    (fits : period.toNat + period.toNat / 2 ^ s.shift.toNat + 1 < 65536) :
    ∃ change mute, s.track period onesComplement = .ok { s with change, mute } ∧
      IsTracked { s with change, mute } period onesComplement := by
  have change : (period >>> s.shift.toUInt16).toNat = period.toNat / 2 ^ s.shift.toNat := by
    rw [UInt16.toNat_shiftRight, Nat.shiftRight_eq_div_pow, UInt8.toNat_toUInt16,
      Nat.mod_eq_of_lt shift]
  have range := isOutOfRange_eq (s := { s with change := period >>> s.shift.toUInt16 })
    period onesComplement (by rw [change]; exact fits)
  refine ⟨period >>> s.shift.toUInt16, decide (period.toNat < 8 ∨ 0x7FF <
    goal { s with change := period >>> s.shift.toUInt16 } period onesComplement), ?_, change, rfl⟩
  rw [track, Checked.shiftRight16_of_lt (UInt8.lt_iff_toNat_lt.mpr shift)]
  simp only [bind, Except.bind, range]
  rfl

/-- A sweep that goes up and can be found for a period leads to a word. -/
theorem fits_of_track {s s' : Sweep} (period : UInt16) {onesComplement : Bool}
    (run : s.track period onesComplement = .ok s') (up : s.down = false) (long : 8 ≤ period.toNat)
    (shift : s.shift.toNat < 16) : period.toNat + period.toNat / 2 ^ s.shift.toNat < 65536 := by
  obtain ⟨change, found, run⟩ := bind_eq_ok.mp run
  rw [Checked.shiftRight16_of_lt (UInt8.lt_iff_toNat_lt.mpr shift)] at found
  obtain rfl := Except.ok.inj found
  -- The target is asked for only if the period is long enough, and then the sum is checked.
  obtain ⟨mute, range, -⟩ := bind_eq_ok.mp run
  rw [isOutOfRange, if_neg (by rw [UInt16.lt_iff_toNat_lt]; exact Nat.not_lt.mpr long)] at range
  obtain ⟨target, found, -⟩ := bind_eq_ok.mp range
  rw [target?, if_neg (by rw [up]; decide), Checked.add16] at found
  split at found
  · rename_i fits
    rwa [UInt16.toNat_shiftRight, Nat.shiftRight_eq_div_pow, UInt8.toNat_toUInt16,
      Nat.mod_eq_of_lt shift] at fits
  · cases found

/-- The period after a clock of the unit, as an exact number. -/
def next (s : Sweep) (period : UInt16) (onesComplement : Bool) : Nat :=
  if s.isDue then s.goal period onesComplement else period.toNat

theorem exists_update? {s : Sweep} {period : UInt16} (onesComplement : Bool)
    (fits : period.toNat + s.change.toNat + 1 < 65536) :
    ∃ updated, s.update? period onesComplement = .ok updated ∧
      (updated.getD period).toNat = s.next period onesComplement := by
  unfold update? next
  cases s.isDue with
  | false => exact ⟨none, rfl, rfl⟩
  | true =>
    obtain ⟨target, found, value⟩ := exists_target? onesComplement fits
    exact ⟨some target, by simp [found, bind, Except.bind, pure_eq_ok], value⟩

@[simp] theorem shift_countDown (s : Sweep) : s.countDown.shift = s.shift := by
  unfold countDown
  split <;> rfl

@[simp] theorem down_countDown (s : Sweep) : s.countDown.down = s.down := by
  unfold countDown
  split <;> rfl

@[simp] theorem enabled_countDown (s : Sweep) : s.countDown.enabled = s.enabled := by
  unfold countDown
  split <;> rfl

@[simp] theorem period_countDown (s : Sweep) : s.countDown.period = s.period := by
  unfold countDown
  split <;> rfl

theorem timer_countDown_of_reload {s : Sweep} (reload : s.reload = true) :
    s.countDown.timer = s.period := by
  rw [countDown, reload, Bool.or_true, if_pos rfl]

/-- A clock moves the divider and leaves change and mute found for the period after it. -/
theorem exists_clock {s : Sweep} {period : UInt16} (onesComplement : Bool)
    (shift : s.shift.toNat < 16) (fits : period.toNat + s.change.toNat + 1 < 65536)
    (fits' : s.next period onesComplement + s.next period onesComplement / 2 ^ s.shift.toNat + 1 <
      65536) :
    ∃ updated change mute,
      s.clock period onesComplement = .ok (updated, { s.countDown with change, mute }) ∧
      (updated.getD period).toNat = s.next period onesComplement ∧
      IsTracked { s.countDown with change, mute } (updated.getD period) onesComplement := by
  obtain ⟨updated, found, value⟩ := exists_update? onesComplement fits
  -- Change and mute are found after the update, and so for the period after it.
  obtain ⟨change, mute, tracked, isTracked⟩ := exists_track (s := s.countDown)
    (updated.getD period) onesComplement (by rwa [shift_countDown])
    (by rw [value, shift_countDown]; exact fits')
  refine ⟨updated, change, mute, ?_, value, isTracked⟩
  simp only [clock, found, bind, Except.bind, tracked]
  rfl

end Sweep

namespace Sequencer

/-- A sequencer that moves a duty pattern never fails, and keeps its reload value. -/
theorem exists_clock_duty (q : Sequencer) (enable : Bool) :
    ∃ q', q.clock enable .duty = .ok q' ∧ q'.reload = q.reload := by
  unfold clock
  cases enable with
  | false => exact ⟨q, rfl, rfl⟩
  | true =>
    rw [if_pos rfl]
    by_cases out : q.timer = 0
    · refine ⟨_, if_pos out, rfl⟩
    · refine ⟨_, if_neg out, rfl⟩

end Sequencer

namespace Pulse

/-- The sweep after the event of a tick, but for change and mute. -/
def nextSweep (p : Pulse) (event : Option FrameEvent) : Sweep :=
  if event = some .half then p.sweep.countDown else p.sweep

/-- The period after the event of a tick, as an exact number. -/
def nextReload (p : Pulse) (event : Option FrameEvent) : Nat :=
  if event = some .half then p.sweep.next p.seq.reload p.onesComplement else p.seq.reload.toNat

/-- Period and sweep of the second voice are those that the first one has after an event. -/
structure HasMoved (p : Pulse) (event : Option FrameEvent) (p' : Pulse) : Prop where
  reload : p'.seq.reload.toNat = p.nextReload event
  sweep : ∃ change mute, p'.sweep = { p.nextSweep event with change, mute }
  onesComplement : p'.onesComplement = p.onesComplement

theorem HasMoved.shift {p p' : Pulse} {event : Option FrameEvent} (h : p.HasMoved event p') :
    p'.sweep.shift = p.sweep.shift := by
  obtain ⟨change, mute, sweep⟩ := h.sweep
  rw [sweep]
  unfold nextSweep
  split <;> simp

variable {p : Pulse}

theorem exists_halfFrame (shift : p.sweep.shift.toNat < 16)
    (fits : p.seq.reload.toNat + p.sweep.change.toNat + 1 < 65536)
    (fits' : p.nextReload (some .half) + p.nextReload (some .half) / 2 ^ p.sweep.shift.toNat + 1 <
      65536) :
    ∃ p', p.halfFrame = .ok p' ∧ p.HasMoved (some .half) p' := by
  obtain ⟨updated, change, mute, moved, value, -⟩ :=
    Sweep.exists_clock p.onesComplement shift fits
      (by simpa [nextReload] using fits')
  have run : p.halfFrame = .ok { p with
      length := p.length.clock p.enabled p.halt
      sweep := { p.sweep.countDown with change, mute }
      seq := { p.seq with reload := updated.getD p.seq.reload } } := by
    simp only [halfFrame, moved, bind, Except.bind, pure_eq_ok]
  exact ⟨_, run, by rw [nextReload, if_pos rfl, ← value], ⟨change, mute, rfl⟩, rfl⟩

theorem exists_handle {event : FrameEvent} (shift : p.sweep.shift.toNat < 16)
    (fits : p.seq.reload.toNat + p.sweep.change.toNat + 1 < 65536)
    (fits' : p.nextReload (some event) +
      p.nextReload (some event) / 2 ^ p.sweep.shift.toNat + 1 < 65536) :
    ∃ p', p.handle event = .ok p' ∧ p.HasMoved (some event) p' := by
  cases event with
  | idle => exact ⟨p, rfl, rfl, ⟨_, _, rfl⟩, rfl⟩
  | quarter => exact ⟨p.quarterFrame, rfl, rfl, ⟨_, _, rfl⟩, rfl⟩
  | half =>
    obtain ⟨p', run, moved⟩ := exists_halfFrame (p := p.quarterFrame) shift fits fits'
    exact ⟨p', run, moved.reload, moved.sweep, moved.onesComplement⟩

theorem exists_clock (p : Pulse) (t : Float) :
    ∃ seq output, p.clock t = .ok { p with seq, output } ∧ seq.reload = p.seq.reload := by
  obtain ⟨seq, moved, reload⟩ := p.seq.exists_clock_duty p.enabled
  exact ⟨seq, _, by simp only [clock, moved, bind, Except.bind]; rfl, reload⟩

theorem exists_advance {event : Option FrameEvent} (t : Float) (shift : p.sweep.shift.toNat < 16)
    (fits : p.seq.reload.toNat + p.sweep.change.toNat + 1 < 65536)
    (fits' : p.nextReload event + p.nextReload event / 2 ^ p.sweep.shift.toNat + 1 < 65536) :
    ∃ p', p.advance event t = .ok p' ∧ p.HasMoved event p' := by
  cases event with
  | none => exact ⟨p, rfl, rfl, ⟨_, _, rfl⟩, rfl⟩
  | some event =>
    obtain ⟨p₁, handled, moved⟩ := exists_handle shift fits fits'
    obtain ⟨seq, output, clocked, reload⟩ := p₁.exists_clock t
    exact ⟨_, bind_eq_ok.mpr ⟨p₁, handled, clocked⟩, by rw [← moved.reload, ← reload], moved.sweep,
      moved.onesComplement⟩

/-- A tick moves period and sweep by its event and leaves change and mute found for the period
after it, as long as the sums on the way are words. -/
theorem exists_tick (event : Option FrameEvent) (t : Float) (shift : p.sweep.shift.toNat < 16)
    (fits : p.seq.reload.toNat + p.sweep.change.toNat + 1 < 65536)
    (fits' : p.nextReload event + p.nextReload event / 2 ^ p.sweep.shift.toNat + 1 < 65536) :
    ∃ p', p.tick event t = .ok p' ∧ p.HasMoved event p' ∧
      p'.sweep.IsTracked p'.seq.reload p'.onesComplement := by
  obtain ⟨p₁, advanced, moved⟩ := exists_advance t shift fits fits'
  obtain ⟨change, mute, tracked, isTracked⟩ := Sweep.exists_track (s := p₁.sweep)
    p₁.seq.reload p₁.onesComplement (by rwa [moved.shift])
    (by rw [moved.reload, moved.shift]; exact fits')
  refine ⟨{ p₁ with sweep := { p₁.sweep with change, mute } }, ?_, ⟨moved.reload, ?_,
    moved.onesComplement⟩, isTracked⟩
  · refine bind_eq_ok.mpr ⟨p₁, advanced, ?_⟩
    simp only [trackSweep, tracked, bind, Except.bind]
    rfl
  · obtain ⟨change', mute', sweep⟩ := moved.sweep
    exact ⟨change, mute, by rw [sweep]⟩

/-! ### Periods in range -/

/-- The next half frame moves the period above the longest one, by a change found before. -/
def Overshoots (p : Pulse) : Prop :=
  p.sweep.isDue ∧ 0x7FF < p.sweep.goal p.seq.reload p.onesComplement

/-- Period and change are eleven bits long, and the shift is three. -/
structure InRange (p : Pulse) : Prop where
  reload_le : p.seq.reload.toNat ≤ 0x7FF
  change_le : p.sweep.change.toNat ≤ 0x7FF
  shift_le : p.sweep.shift.toNat ≤ 7

namespace InRange

theorem goal_le (h : p.InRange) : p.sweep.goal p.seq.reload p.onesComplement ≤ 0xFFE := by
  have := h.reload_le
  have := h.change_le
  unfold Sweep.goal
  split <;> omega

theorem nextReload_le (h : p.InRange) (event : Option FrameEvent) :
    p.nextReload event ≤ 0xFFE := by
  have := h.goal_le
  have := h.reload_le
  unfold nextReload Sweep.next
  split
  · split <;> omega
  · omega

theorem nextReload_le_iff (h : p.InRange) (event : Option FrameEvent) :
    p.nextReload event ≤ 0x7FF ↔ ¬ (event = some .half ∧ p.Overshoots) := by
  have := h.reload_le
  unfold nextReload Sweep.next Overshoots
  by_cases half : event = some .half
  · cases due : p.sweep.isDue <;> simp [half]
    omega
  · simp [half]
    omega

/-- A voice in range has a tick, after which change and mute are those of its period. -/
theorem exists_tick (h : p.InRange) (event : Option FrameEvent) (t : Float) :
    ∃ p', p.tick event t = .ok p' ∧ p.HasMoved event p' ∧
      p'.sweep.IsTracked p'.seq.reload p'.onesComplement := by
  have next := h.nextReload_le event
  have least := Nat.div_le_self (p.nextReload event) (2 ^ p.sweep.shift.toNat)
  exact Pulse.exists_tick event t (Nat.lt_of_le_of_lt h.shift_le (by decide))
    (by have := h.reload_le; have := h.change_le; omega) (by omega)

/-- A voice stays in range through a tick that leaves its period there. -/
theorem of_tick {p' : Pulse} {event : Option FrameEvent} (h : p.InRange)
    (moved : p.HasMoved event p')
    (tracked : p'.sweep.IsTracked p'.seq.reload p'.onesComplement)
    (reload_le : p'.seq.reload.toNat ≤ 0x7FF) : p'.InRange where
  reload_le := reload_le
  change_le := by
    rw [tracked.change_eq]
    exact Nat.le_trans (Nat.div_le_self ..) reload_le
  shift_le := moved.shift ▸ h.shift_le

/-- A register write keeps the voice in range. -/
theorem write (h : p.InRange) (register : Register) (data : UInt8) :
    (p.write register data).InRange := by
  have byte : data.toUInt16.toNat < 2 ^ 11 := by
    rw [UInt8.toNat_toUInt16]
    exact Nat.lt_trans data.toNat_lt (by decide)
  have reload : p.seq.reload.toNat < 2 ^ 11 := Nat.lt_succ_of_le h.reload_le
  have three : (data &&& 0x07).toNat ≤ 7 := by
    rw [UInt8.toNat_and]
    exact Nat.and_le_right
  cases register with
  | control => exact ⟨h.reload_le, h.change_le, h.shift_le⟩
  | sweep => exact ⟨h.reload_le, h.change_le, three⟩
  | timerLow =>
    -- The bits above the lowest eight stay, and were three already.
    refine ⟨Nat.le_of_lt_succ ?_, h.change_le, h.shift_le⟩
    change ((p.seq.reload &&& 0xFF00) ||| data.toUInt16).toNat < 2 ^ 11
    rw [UInt16.toNat_or, UInt16.toNat_and]
    exact Nat.or_lt_two_pow (Nat.lt_of_le_of_lt Nat.and_le_left reload) byte
  | timerHigh =>
    -- Three bits come above the lowest eight.
    refine ⟨Nat.le_of_lt_succ ?_, h.change_le, h.shift_le⟩
    change (((data &&& 0x07).toUInt16 <<< 8) ||| (p.seq.reload &&& 0x00FF)).toNat < 2 ^ 11
    rw [UInt16.toNat_or, UInt16.toNat_and, UInt16.toNat_shiftLeft, UInt8.toNat_toUInt16]
    refine Nat.or_lt_two_pow ?_ (Nat.lt_of_le_of_lt Nat.and_le_left reload)
    change ((data &&& 0x07).toNat <<< 8) % 2 ^ 16 < 2 ^ 11
    rw [Nat.shiftLeft_eq]
    omega

theorem setEnabled (h : p.InRange) (enabled : Bool) : (p.setEnabled enabled).InRange :=
  ⟨h.reload_le, h.change_le, h.shift_le⟩

theorem initial (onesComplement : Bool) : InRange { onesComplement } :=
  ⟨Nat.zero_le _, Nat.zero_le _, Nat.zero_le _⟩

end InRange

/-- A change that was found for the period in force cannot overshoot. -/
theorem not_overshoots_of_isTracked
    (h : p.sweep.IsTracked p.seq.reload p.onesComplement) : ¬ p.Overshoots := by
  rintro ⟨due, long⟩
  have unmuted : p.sweep.mute = false := by
    simp only [Sweep.isDue, Bool.and_eq_true, Bool.not_eq_true'] at due
    exact due.2
  rw [h.mute_eq, decide_eq_false_iff_not] at unmuted
  exact unmuted (.inr long)

/-! ### Periods that double -/

/-- The sweep is set to shift by nothing and to go down, so that it mutes no period above seven. -/
structure AwaitsDoubling (p : Pulse) (period : Nat) : Prop where
  reload_eq : p.seq.reload.toNat = period
  change_le : p.sweep.change.toNat ≤ period
  shift : p.sweep.shift = 0
  down : p.sweep.down = true
  timer : p.sweep.timer = 0
  onesComplement : p.onesComplement = true

namespace AwaitsDoubling

variable {period : Nat}

theorem nextReload_eq (h : p.AwaitsDoubling period) {event : Option FrameEvent}
    (quiet : event ≠ some .half) : p.nextReload event = period := by
  rw [nextReload, if_neg quiet, h.reload_eq]

/-- A tick without a half frame keeps the voice waiting, with the whole period as its change. -/
theorem exists_tick (h : p.AwaitsDoubling period) {event : Option FrameEvent} (t : Float)
    (quiet : event ≠ some .half) (room : 2 * period + 1 < 65536) :
    ∃ p', p.tick event t = .ok p' ∧ p'.AwaitsDoubling period ∧
      p'.sweep.IsTracked p'.seq.reload p'.onesComplement := by
  have next := h.nextReload_eq quiet
  have whole : p.nextReload event / 2 ^ p.sweep.shift.toNat = period := by
    rw [next, h.shift]
    exact Nat.div_one period
  obtain ⟨p', run, moved, tracked⟩ := Pulse.exists_tick event t (by rw [h.shift]; decide)
    (by have := h.reload_eq; have := h.change_le; omega) (by rw [whole, next]; omega)
  refine ⟨p', run, ?_, tracked⟩
  obtain ⟨change, mute, sweep⟩ := moved.sweep
  rw [nextSweep, if_neg quiet] at sweep
  have reload : p'.seq.reload.toNat = period := moved.reload.trans next
  exact {
    reload_eq := reload
    change_le := by
      rw [tracked.change_eq, reload]
      exact Nat.div_le_self ..
    shift := by rw [sweep]; exact h.shift
    down := by rw [sweep]; exact h.down
    timer := by rw [sweep]; exact h.timer
    onesComplement := moved.onesComplement.trans h.onesComplement }

theorem change_eq (h : p.AwaitsDoubling period)
    (tracked : p.sweep.IsTracked p.seq.reload p.onesComplement) :
    p.sweep.change.toNat = period := by
  rw [tracked.change_eq, h.reload_eq, h.shift]
  exact Nat.div_one period

/-- The whole period is taken off it, which leaves nothing that would be too long. -/
theorem mute_eq (h : p.AwaitsDoubling period) (long : 8 ≤ period)
    (tracked : p.sweep.IsTracked p.seq.reload p.onesComplement) : p.sweep.mute = false := by
  rw [tracked.mute_eq, decide_eq_false_iff_not, Sweep.goal, h.down, h.change_eq tracked,
    h.reload_eq]
  simp only [if_true]
  omega

theorem isDue (h : p.AwaitsDoubling period) (long : 8 ≤ period)
    (tracked : p.sweep.IsTracked p.seq.reload p.onesComplement) :
    (p.write .sweep 0x81).sweep.isDue = true := by
  change (p.sweep.timer = 0 && true && true && !p.sweep.mute) = true
  rw [h.timer, h.mute_eq long tracked]
  rfl

/-- Setting the sweep up by one place makes the next half frame add the whole period, which is the
change found before. -/
theorem next_eq (h : p.AwaitsDoubling period) (long : 8 ≤ period)
    (tracked : p.sweep.IsTracked p.seq.reload p.onesComplement) :
    (p.write .sweep 0x81).sweep.next p.seq.reload p.onesComplement = 2 * period := by
  rw [Sweep.next, if_pos (h.isDue long tracked)]
  change p.seq.reload.toNat + p.sweep.change.toNat = 2 * period
  rw [h.reload_eq, h.change_eq tracked]
  omega

/-- That overshoots if the double of the period is too long. -/
theorem overshoots_iff (h : p.AwaitsDoubling period) (long : 8 ≤ period)
    (tracked : p.sweep.IsTracked p.seq.reload p.onesComplement) :
    (p.write .sweep 0x81).Overshoots ↔ 0x7FF < 2 * period := by
  have next := h.next_eq long tracked
  have due := h.isDue long tracked
  rw [Sweep.next, if_pos due] at next
  exact ⟨fun past => next ▸ past.2, fun past => ⟨due, next ▸ past⟩⟩

/-- A half frame right after the sweep was set up by one place doubles the period. -/
theorem exists_double (h : p.AwaitsDoubling period) (t : Float) (long : 8 ≤ period)
    (tracked : p.sweep.IsTracked p.seq.reload p.onesComplement) (room : 3 * period + 1 < 65536) :
    ∃ p', (p.write .sweep 0x81).tick (some .half) t = .ok p' ∧
      (p'.write .sweep 0x08).AwaitsDoubling (2 * period) := by
  have next : (p.write .sweep 0x81).nextReload (some .half) = 2 * period := h.next_eq long tracked
  have fits : p.seq.reload.toNat + p.sweep.change.toNat + 1 < 65536 := by
    rw [h.reload_eq, h.change_eq tracked]
    omega
  have fits' : 2 * period + 2 * period / 2 ^ 1 + 1 < 65536 := by omega
  obtain ⟨p', run, moved, tracked'⟩ :=
    Pulse.exists_tick (p := p.write .sweep 0x81) (some .half) t
      (by decide : (1 : UInt8).toNat < 16) fits (by rw [next]; exact fits')
  obtain ⟨change, mute, sweep⟩ := moved.sweep
  -- The write has the divider start again, from a period of zero.
  have timer : p'.sweep.timer = 0 := by
    rw [sweep]
    exact Sweep.timer_countDown_of_reload rfl
  refine ⟨p', run, moved.reload.trans next, ?_, rfl, rfl, timer,
    moved.onesComplement.trans h.onesComplement⟩
  change p'.sweep.change.toNat ≤ 2 * period
  rw [tracked'.change_eq, moved.reload.trans next]
  exact Nat.div_le_self ..

/-- A double of the period to which no half more can be added leaves the half frame without a
result. -/
theorem tick_ne_ok (h : p.AwaitsDoubling period) (t : Float) (long : 8 ≤ period)
    (tracked : p.sweep.IsTracked p.seq.reload p.onesComplement) (room : 2 * period + 1 < 65536)
    (past : 65536 ≤ 3 * period) (p' : Pulse) :
    (p.write .sweep 0x81).tick (some .half) t ≠ .ok p' := by
  intro run
  have fits : p.seq.reload.toNat + p.sweep.change.toNat + 1 < 65536 := by
    rw [h.reload_eq, h.change_eq tracked]
    omega
  obtain ⟨updated, found, value⟩ := Sweep.exists_update? (s := (p.write .sweep 0x81).sweep)
    p.onesComplement fits
  rw [h.next_eq long tracked] at value
  -- A result would have found the sweep for the double of the period.
  obtain ⟨p₁, advanced, -⟩ := bind_eq_ok.mp run
  obtain ⟨p₂, handled, -⟩ := bind_eq_ok.mp advanced
  obtain ⟨⟨updated', sweep⟩, clocked, -⟩ := bind_eq_ok.mp handled
  obtain ⟨updated'', found', clocked⟩ := bind_eq_ok.mp clocked
  obtain rfl : updated = updated'' := Except.ok.inj (found.symm.trans found')
  obtain ⟨sweep', tracks, -⟩ := bind_eq_ok.mp clocked
  have shift : (p.write .sweep 0x81).sweep.countDown.shift = 1 := Sweep.shift_countDown _
  have sum := Sweep.fits_of_track (s := (p.write .sweep 0x81).sweep.countDown)
    (updated.getD p.seq.reload) tracks (Sweep.down_countDown _) (by omega)
    (by rw [shift]; decide)
  rw [value, shift] at sum
  change 2 * period + 2 * period / 2 ^ 1 < 65536 at sum
  omega

end AwaitsDoubling

end Pulse

end Famicom.Audio
