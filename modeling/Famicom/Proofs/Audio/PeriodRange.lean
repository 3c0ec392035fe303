import Famicom.Proofs.Audio.FrameTiming
import Famicom.Proofs.Audio.SweepTick

/-!
# Pulse periods in range

Periods that are written have eleven bits, and so has what a sweep makes of one, unless a half frame
overshoots: it works with a change that was found before the last register writes. Then the period
may grow from half frame to half frame, until a sum is no word any more.

## Main definitions

* `Synthesizer.PeriodsInRange` — both pulse periods have eleven bits
* `Synthesizer.Overshoots` — the next tick moves a pulse period out of range
* `Synthesizer.SweepsTracked` — both sweeps hold change and mute of the period in force
* `Synthesizer.InRange` — the invariant behind `PeriodsInRange`

## Main results

* `Synthesizer.InRange.exists_clock`, `Synthesizer.InRange.apply` — a step of a unit in range
* `Synthesizer.InRange.exists_clocks` — any number of ticks of such a unit
* `Synthesizer.not_overshoots_of_sweepsTracked` — tracked sweeps do not overshoot
* `Synthesizer.periodsInRange_iff_no_overshoot` — periods are in range as long as no tick overshoots
-/

namespace Famicom.Audio

namespace Synthesizer

/-- Both pulse voices have a period of eleven bits. -/
def PeriodsInRange (s : Synthesizer) : Prop :=
  s.pulse1.seq.reload ≤ 0x7FF ∧ s.pulse2.seq.reload ≤ 0x7FF

/-- The next tick makes a half frame that moves the period of a pulse voice out of range. -/
def Overshoots (s : Synthesizer) : Prop :=
  s.frameEvent? = some .half ∧ (s.pulse1.Overshoots ∨ s.pulse2.Overshoots)

/-- Both sweeps hold change and mute of the period in force. -/
def SweepsTracked (s : Synthesizer) : Prop :=
  s.pulse1.sweep.IsTracked s.pulse1.seq.reload s.pulse1.onesComplement ∧
    s.pulse2.sweep.IsTracked s.pulse2.seq.reload s.pulse2.onesComplement

/-- Both pulse voices are in range, and the sample player has bits to play. -/
structure InRange (s : Synthesizer) : Prop where
  pulse1 : s.pulse1.InRange
  pulse2 : s.pulse2.InRange
  bits : s.dmc.bitsRemaining ≠ 0

theorem not_overshoots_of_sweepsTracked {s : Synthesizer} (h : s.SweepsTracked) :
    ¬ s.Overshoots := by
  rintro ⟨-, past | past⟩
  · exact Pulse.not_overshoots_of_isTracked h.1 past
  · exact Pulse.not_overshoots_of_isTracked h.2 past

/-- Nothing overshoots in a tick without a half frame. -/
theorem IsAligned.not_overshoots {s : Synthesizer} (h : s.IsAligned)
    (quiet : eventOfTick? s.ticks.toNat ≠ some .half) : ¬ s.Overshoots := by
  rintro ⟨half, -⟩
  exact quiet (h.frameEvent?_eq ▸ half)

namespace InRange

variable {s s' : Synthesizer}

theorem periodsInRange (h : s.InRange) : s.PeriodsInRange :=
  ⟨UInt16.le_iff_toNat_le.mpr h.pulse1.reload_le, UInt16.le_iff_toNat_le.mpr h.pulse2.reload_le⟩

theorem write (h : s.InRange) (address : UInt16) (data : UInt8) :
    (s.write address data).InRange := by
  unfold Synthesizer.write
  split
  · rename_i register _
    cases register with
    | pulse1 r => exact ⟨h.pulse1.write r data, h.pulse2, h.bits⟩
    | pulse2 r => exact ⟨h.pulse1, h.pulse2.write r data, h.bits⟩
    | triangle r => exact ⟨h.pulse1, h.pulse2, h.bits⟩
    | noise r => exact ⟨h.pulse1, h.pulse2, h.bits⟩
    | dmc r =>
      exact ⟨h.pulse1, h.pulse2, (s.dmc.bitsRemaining_write r data).symm ▸ h.bits⟩
    | status =>
      exact ⟨h.pulse1.setEnabled _, h.pulse2.setEnabled _,
        (s.dmc.bitsRemaining_setEnabled _).symm ▸ h.bits⟩
  · exact h

theorem deliver (h : s.InRange) (byte : UInt8) : (s.deliver byte).InRange :=
  ⟨h.pulse1, h.pulse2, (s.dmc.bitsRemaining_deliver byte).symm ▸ h.bits⟩

theorem of_isStart (h : s.IsStart) : s.InRange := by
  obtain ⟨switches, taps, rfl⟩ := h.exists_eq
  exact ⟨.initial true, .initial false, (by decide : (8 : UInt8) ≠ 0)⟩

/-- A unit in range has a tick, after which both sweeps are found again. It leaves the unit in range
unless it overshoots. -/
theorem exists_clock (h : s.InRange) :
    ∃ s', s.clock = .ok s' ∧ s'.SweepsTracked ∧ (¬ s.Overshoots → s'.InRange) ∧
      (s.Overshoots → ¬ s'.PeriodsInRange) := by
  obtain ⟨p, hp, movedP, trackedP⟩ := h.pulse1.exists_tick s.frameEvent? (s.time + secondsPerTick)
  obtain ⟨q, hq, movedQ, trackedQ⟩ := h.pulse2.exists_tick s.frameEvent? (s.time + secondsPerTick)
  obtain ⟨s', run, rfl, rfl, bits⟩ := Synthesizer.exists_clock h.bits hp hq
  -- What moved the periods was found before the tick, so they alone may leave their range.
  have rangeP := h.pulse1.nextReload_le_iff s.frameEvent?
  have rangeQ := h.pulse2.nextReload_le_iff s.frameEvent?
  rw [← movedP.reload] at rangeP
  rw [← movedQ.reload] at rangeQ
  refine ⟨s', run, ⟨trackedP, trackedQ⟩, ?_, ?_⟩
  · intro stays
    have stayP : ¬ (s.frameEvent? = some .half ∧ s.pulse1.Overshoots) := by
      rintro ⟨half, past⟩
      exact stays ⟨half, .inl past⟩
    have stayQ : ¬ (s.frameEvent? = some .half ∧ s.pulse2.Overshoots) := by
      rintro ⟨half, past⟩
      exact stays ⟨half, .inr past⟩
    exact ⟨h.pulse1.of_tick movedP trackedP (rangeP.mpr stayP),
      h.pulse2.of_tick movedQ trackedQ (rangeQ.mpr stayQ), bits⟩
  · rintro ⟨half, past⟩ range
    rcases past with past | past
    · exact rangeP.mp (UInt16.le_iff_toNat_le.mp range.1) ⟨half, past⟩
    · exact rangeQ.mp (UInt16.le_iff_toNat_le.mp range.2) ⟨half, past⟩

/-- A unit in range has as many ticks as one likes, unless the first one overshoots. -/
theorem exists_clocks (h : s.InRange) (stays : ¬ s.Overshoots) (n : Nat) :
    ∃ s', (List.replicate n Operation.clock).foldlM Synthesizer.apply s = .ok s' ∧ s'.InRange ∧
      ¬ s'.Overshoots := by
  induction n generalizing s with
  | zero => exact ⟨s, rfl, h, stays⟩
  | succ n ih =>
    obtain ⟨middle, first, tracked, inRange, -⟩ := h.exists_clock
    obtain ⟨s', rest, kept⟩ := ih (inRange stays) (not_overshoots_of_sweepsTracked tracked)
    exact ⟨s', foldlM_cons_eq_ok.mpr ⟨middle, first, rest⟩, kept⟩

/-- None of these ticks overshoots. -/
theorem not_overshoots_of_clocks (h : s.InRange) (stays : ¬ s.Overshoots) {n : Nat}
    {rest : List Operation}
    (visit : Visits Synthesizer.apply s (List.replicate n .clock) s' rest) : ¬ s'.Overshoots := by
  obtain ⟨before, split, run⟩ := visit
  obtain ⟨-, clocks, -⟩ := List.replicate_eq_append_iff.mp split
  rw [clocks] at run
  obtain ⟨s'', run', -, stays'⟩ := h.exists_clocks stays before.length
  rwa [Except.ok.inj (run'.symm.trans run)] at stays'

/-- Every operation but a tick that overshoots keeps the unit in range. -/
theorem apply (h : s.InRange) {op : Operation} (stays : op = .clock → ¬ s.Overshoots)
    (run : s.apply op = .ok s') : s'.InRange := by
  cases op with
  | clock =>
    obtain ⟨s'', run', -, inRange, -⟩ := h.exists_clock
    obtain rfl : s'' = s' := Except.ok.inj (run'.symm.trans run)
    exact inRange (stays rfl)
  | write address data => exact Except.ok.inj run ▸ h.write address data
  | deliver byte => exact Except.ok.inj run ▸ h.deliver byte
  | reset => exact .of_isStart (isStart_of_reset run)
  | sample | setHeard _ _ | setTapCapacity _ | drain _ =>
    exact Except.ok.inj run ▸ ⟨h.pulse1, h.pulse2, h.bits⟩

end InRange

/-- From a unit in range, periods stay in range and ticks have results as long as no tick
overshoots, and no longer. -/
theorem InRange.visits_iff {start : Synthesizer} (h : start.InRange) (ops : List Operation) :
    (∀ s rest, Visits Synthesizer.apply start ops s rest →
      s.PeriodsInRange ∧ (rest.head? = some .clock → ∃ s', s.clock = .ok s')) ↔
    ∀ s rest, Visits Synthesizer.apply start ops s (.clock :: rest) → ¬ s.Overshoots := by
  -- The start is in range, and so is what the first operation makes of it unless it overshoots.
  induction ops generalizing start with
  | nil =>
    constructor
    · intro _ s rest visit
      cases (visits_nil.mp visit).2
    · intro _ s rest visit
      obtain ⟨rfl, rfl⟩ := visits_nil.mp visit
      exact ⟨h.periodsInRange, by simp⟩
  | cons op ops ih =>
    constructor
    · intro safe s rest visit past
      rcases visits_cons.mp visit with ⟨rfl, here⟩ | ⟨s', run, visit⟩
      · -- The first operation overshoots, so the periods after it are out of range.
        obtain ⟨rfl, -⟩ := List.cons.inj here
        obtain ⟨s', run, -, -, out⟩ := h.exists_clock
        exact out past (safe s' ops (visits_cons.mpr (.inr ⟨s', run, .start s' ops⟩))).1
      · have stays : op = .clock → ¬ start.Overshoots := by
          rintro rfl past'
          obtain ⟨s'', run', -, -, out⟩ := h.exists_clock
          exact out past' (safe s'' ops (visits_cons.mpr (.inr ⟨s'', run', .start s'' ops⟩))).1
        refine (ih (h.apply stays run)).mp ?_ s rest visit past
        intro t rest visit
        exact safe t rest (visits_cons.mpr (.inr ⟨s', run, visit⟩))
    · intro quiet s rest visit
      have stays : op = .clock → ¬ start.Overshoots := by
        rintro rfl
        exact quiet start ops (.start start _)
      rcases visits_cons.mp visit with ⟨rfl, rfl⟩ | ⟨s', run, visit⟩
      · refine ⟨h.periodsInRange, fun _ => ?_⟩
        obtain ⟨s', run, -⟩ := h.exists_clock
        exact ⟨s', run⟩
      · refine (ih (h.apply stays run)).mpr ?_ s rest visit
        intro t rest visit
        exact quiet t rest (visits_cons.mpr (.inr ⟨s', run, visit⟩))

/-! ### Periods that double -/

/-- Waits for a number of ticks, then sets the sweep of the first pulse voice up for one tick. -/
def doubling (wait : Nat) : List Operation :=
  List.replicate wait .clock ++ [.write 0x4001 0x81, .clock, .write 0x4001 0x08]

/-- The unit has made a number of ticks, its first voice awaits doubling, and the sweep of the
second one is off. -/
structure AwaitsDoubling (s : Synthesizer) (period ticks : Nat) : Prop where
  pulse1 : s.pulse1.AwaitsDoubling period
  pulse2 : s.pulse2.InRange
  off : s.pulse2.sweep.enabled = false
  bits : s.dmc.bitsRemaining ≠ 0
  aligned : s.IsAligned
  ticks_eq : s.ticks.toNat = ticks

namespace AwaitsDoubling

variable {s : Synthesizer} {period ticks : Nat}

/-- The second voice does not take part. -/
theorem exists_tick_pulse2 (h : s.AwaitsDoubling period ticks) (t : Float) :
    ∃ p, s.pulse2.tick s.frameEvent? t = .ok p ∧ p.InRange ∧ p.sweep.enabled = false := by
  obtain ⟨p, run, moved, tracked⟩ := h.pulse2.exists_tick s.frameEvent? t
  -- Its sweep is off, so no half frame updates its period.
  have stays : ¬ s.pulse2.Overshoots := by
    rintro ⟨due, -⟩
    simp [Sweep.isDue, h.off] at due
  refine ⟨p, run, h.pulse2.of_tick moved tracked ?_, ?_⟩
  · rw [moved.reload, h.pulse2.nextReload_le_iff]
    intro past
    exact stays past.2
  · obtain ⟨change, mute, sweep⟩ := moved.sweep
    rw [sweep]
    change (s.pulse2.nextSweep s.frameEvent?).enabled = false
    unfold Pulse.nextSweep
    split
    · rw [Sweep.enabled_countDown, h.off]
    · exact h.off

/-- A tick without a half frame. -/
theorem exists_clock (h : s.AwaitsDoubling period ticks) (room : 2 * period + 1 < 65536)
    (few : ticks + 1 < 2 ^ 64) (quiet : eventOfTick? ticks ≠ some .half) :
    ∃ s', s.clock = .ok s' ∧ s'.AwaitsDoubling period (ticks + 1) ∧
      s'.pulse1.sweep.IsTracked s'.pulse1.seq.reload s'.pulse1.onesComplement := by
  have event : s.frameEvent? ≠ some .half := by
    rwa [h.aligned.frameEvent?_eq, h.ticks_eq]
  obtain ⟨p, hp, waits, tracked⟩ :=
    h.pulse1.exists_tick (s.time + secondsPerTick) event room
  obtain ⟨q, hq, range, off⟩ := h.exists_tick_pulse2 (s.time + secondsPerTick)
  obtain ⟨s', run, rfl, rfl, bits⟩ := Synthesizer.exists_clock h.bits hp hq
  have tick := clock_eq_ok_iff.mp run
  have fits : s.ticks.toNat + 1 < 2 ^ 64 := by rwa [h.ticks_eq]
  exact ⟨s', run, ⟨waits, range, off, bits, h.aligned.of_isTick tick fits,
    by rw [tick.toNat_ticks fits, h.ticks_eq]⟩, tracked⟩

/-- Ticks without half frames, one at least. -/
theorem exists_run (h : s.AwaitsDoubling period ticks) (room : 2 * period + 1 < 65536)
    {more : Nat} (few : ticks + more + 1 < 2 ^ 64)
    (quiet : ∀ t, ticks ≤ t → t ≤ ticks + more → eventOfTick? t ≠ some .half) :
    ∃ s', (List.replicate (more + 1) Operation.clock).foldlM apply s = .ok s' ∧
      s'.AwaitsDoubling period (ticks + more + 1) ∧
      s'.pulse1.sweep.IsTracked s'.pulse1.seq.reload s'.pulse1.onesComplement := by
  induction more generalizing s ticks with
  | zero =>
    obtain ⟨s', run, waits⟩ := h.exists_clock room few (quiet ticks (Nat.le_refl _) (Nat.le_refl _))
    exact ⟨s', foldlM_cons_eq_ok.mpr ⟨s', run, rfl⟩, waits⟩
  | succ more ih =>
    obtain ⟨s₁, first, waits, -⟩ :=
      h.exists_clock room (by omega) (quiet ticks (Nat.le_refl _) (by omega))
    obtain ⟨s', rest, waits', tracked⟩ := ih waits (by omega)
      fun t above below => quiet t (by omega) (by omega)
    refine ⟨s', foldlM_cons_eq_ok.mpr ⟨s₁, first, rest⟩, ?_, tracked⟩
    rwa [show ticks + (more + 1) + 1 = ticks + 1 + more + 1 by omega]

/-- A wait up to a half frame, and the half frame that doubles the period. -/
theorem exists_doubling (h : s.AwaitsDoubling period ticks) (more : Nat) (long : 8 ≤ period)
    (room : 3 * period + 1 < 65536) (few : ticks + more + 2 < 2 ^ 64)
    (quiet : ∀ t, ticks ≤ t → t ≤ ticks + more → eventOfTick? t ≠ some .half)
    (half : eventOfTick? (ticks + more + 1) = some .half) :
    ∃ s', (doubling (more + 1)).foldlM apply s = .ok s' ∧
      s'.AwaitsDoubling (2 * period) (ticks + more + 2) := by
  obtain ⟨s₁, waiting, waits, tracked⟩ := h.exists_run (by omega) (by omega) quiet
  have event : s₁.frameEvent? = some .half := by
    rw [waits.aligned.frameEvent?_eq, waits.ticks_eq, half]
  -- The register is written between the last tick of the wait and the half frame.
  obtain ⟨p, hp, doubled⟩ := waits.pulse1.exists_double (s₁.time + secondsPerTick) long tracked room
  obtain ⟨q, hq, range, off⟩ := waits.exists_tick_pulse2 (s₁.time + secondsPerTick)
  obtain ⟨s₂, run, rfl, rfl, bits⟩ := Synthesizer.exists_clock (s := s₁.write 0x4001 0x81)
    waits.bits (by rw [← event] at hp; exact hp) hq
  have tick := clock_eq_ok_iff.mp run
  have fits : s₁.ticks.toNat + 1 < 2 ^ 64 := by rw [waits.ticks_eq]; omega
  refine ⟨s₂.write 0x4001 0x08, ?_, doubled, range, off, bits, ?_, ?_⟩
  · refine foldlM_append_eq_ok.mpr ⟨s₁, waiting, ?_⟩
    exact foldlM_cons_eq_ok.mpr ⟨_, rfl, foldlM_cons_eq_ok.mpr ⟨s₂, run, rfl⟩⟩
  · exact (IsAligned.of_isTick (s := s₁.write 0x4001 0x81) waits.aligned tick fits).of_eq rfl rfl
  · exact (tick.toNat_ticks fits).trans (congrArg (· + 1) waits.ticks_eq)

/-- A wait up to a half frame after which the period has no double half more that is a word. -/
theorem exists_overflow (h : s.AwaitsDoubling period ticks) (more : Nat) (long : 8 ≤ period)
    (room : 2 * period + 1 < 65536) (past : 65536 ≤ 3 * period)
    (few : ticks + more + 2 < 2 ^ 64)
    (quiet : ∀ t, ticks ≤ t → t ≤ ticks + more → eventOfTick? t ≠ some .half)
    (half : eventOfTick? (ticks + more + 1) = some .half) :
    ∃ s', (List.replicate (more + 1) Operation.clock ++
        [Operation.write 0x4001 0x81]).foldlM apply s = .ok s' ∧
      s'.pulse1.seq.reload.toNat = period ∧ ∀ s'', s'.clock ≠ .ok s'' := by
  obtain ⟨s₁, waiting, waits, tracked⟩ := h.exists_run room (by omega) quiet
  have event : s₁.frameEvent? = some .half := by
    rw [waits.aligned.frameEvent?_eq, waits.ticks_eq, half]
  refine ⟨s₁.write 0x4001 0x81, foldlM_append_eq_ok.mpr ⟨s₁, waiting, rfl⟩,
    waits.pulse1.reload_eq, fun s'' run => ?_⟩
  have tick := (clock_eq_ok_iff.mp run).pulse1
  rw [show (s₁.write 0x4001 0x81).frameEvent? = some .half from event] at tick
  exact waits.pulse1.tick_ne_ok _ long tracked room past _ tick

theorem inRange (h : s.AwaitsDoubling period ticks) (short : period ≤ 0x7FF) : s.InRange where
  pulse1 := {
    reload_le := h.pulse1.reload_eq ▸ short
    change_le := Nat.le_trans h.pulse1.change_le short
    shift_le := h.pulse1.shift ▸ Nat.zero_le 7 }
  pulse2 := h.pulse2
  bits := h.bits

/-- Setting the sweep right before a half frame does no harm if the double is in range. -/
theorem not_overshoots_of_write (h : s.AwaitsDoubling period ticks) (long : 8 ≤ period)
    (tracked : s.pulse1.sweep.IsTracked s.pulse1.seq.reload s.pulse1.onesComplement)
    (short : 2 * period ≤ 0x7FF) : ¬ (s.write 0x4001 0x81).Overshoots := by
  rintro ⟨-, past | ⟨due, -⟩⟩
  · exact Nat.not_lt.mpr short ((h.pulse1.overshoots_iff long tracked).mp past)
  · have off : (s.write 0x4001 0x81).pulse2.sweep.enabled = false := h.off
    simp [Sweep.isDue, off] at due

/-- So no tick overshoots while such a period is doubled. -/
theorem not_overshoots_of_doubling (h : s.AwaitsDoubling period ticks) {more : Nat}
    (long : 8 ≤ period) (short : 2 * period ≤ 0x7FF) (few : ticks + more + 2 < 2 ^ 64)
    (quiet : ∀ t, ticks ≤ t → t ≤ ticks + more → eventOfTick? t ≠ some .half) {t : Synthesizer}
    {rest : List Operation} (visit : Visits apply s (doubling (more + 1)) t (.clock :: rest)) :
    ¬ t.Overshoots := by
  have stays : ¬ s.Overshoots :=
    h.aligned.not_overshoots (h.ticks_eq ▸ quiet _ (by omega) (by omega))
  obtain ⟨s₁, waiting, waits, tracked⟩ := h.exists_run (by omega) (by omega) quiet
  -- The clocks are those of the wait and the one right after the sweep was set.
  rcases visit.of_append with ⟨left, -, visit, -⟩ | ⟨s₁', waiting', visit⟩
  · exact (h.inRange (by omega)).not_overshoots_of_clocks stays visit
  · obtain rfl := Except.ok.inj (waiting.symm.trans waiting')
    rcases visits_cons.mp visit with ⟨-, here⟩ | ⟨s₂, set, visit⟩
    · cases here
    · obtain rfl := Except.ok.inj set
      rcases visits_cons.mp visit with ⟨rfl, -⟩ | ⟨s₃, -, visit⟩
      · exact waits.not_overshoots_of_write long tracked short
      · rcases visits_cons.mp visit with ⟨-, here⟩ | ⟨s₄, -, visit⟩
        · cases here
        · cases (visits_nil.mp visit).2

end AwaitsDoubling

/-- In a new unit whose first voice has a period that ends in 0xFF, and a sweep set to shift by
nothing and to go down, that voice awaits doubling. -/
theorem AwaitsDoubling.of_isStart {start : Synthesizer} (h : start.IsStart) (high : UInt8) :
    (((start.write 0x4001 0x08).write 0x4002 0xFF).write 0x4003 high).AwaitsDoubling
      (256 * (high.toNat % 8) + 255) 0 := by
  have range := InRange.of_isStart h
  have aligned := h.isAligned
  obtain ⟨switches, taps, rfl⟩ := h.exists_eq
  have period : (((high &&& 0x07).toUInt16 <<< 8) |||
      ((((0 : UInt16) &&& 0xFF00) ||| (0xFF : UInt8).toUInt16) &&& 0x00FF)).toNat =
        256 * (high.toNat % 8) + 255 := by
    have three : (high &&& 0x07).toNat = high.toNat % 8 := by
      rw [UInt8.toNat_and]
      exact Nat.and_two_pow_sub_one_eq_mod high.toNat 3
    -- The two parts share no bit, so that or is a sum.
    rw [UInt16.toNat_or, UInt16.toNat_shiftLeft, UInt8.toNat_toUInt16, three]
    change (high.toNat % 8) <<< 8 % 2 ^ 16 ||| 255 = _
    rw [Nat.mod_eq_of_lt (by rw [Nat.shiftLeft_eq]; omega),
      ← Nat.shiftLeft_add_eq_or_of_lt (by decide), Nat.shiftLeft_eq, Nat.mul_comm]
  exact {
    pulse1 := ⟨period, Nat.zero_le _, rfl, rfl, rfl, rfl⟩
    pulse2 := range.pulse2
    off := rfl
    bits := range.bits
    aligned := aligned.of_eq rfl rfl
    ticks_eq := rfl }

/-! ### Runs -/

/-- **When the pulse periods stay in range.** Whatever is done to a new unit, both pulse periods
keep to eleven bits and every tick that is asked for has a result, if and only if no tick
overshoots. -/
theorem periodsInRange_iff_no_overshoot {capacity : Nat} {start : Synthesizer}
    (h : initial capacity = .ok start) (ops : List Operation) :
    (∀ s rest, Visits Synthesizer.apply start ops s rest →
      s.PeriodsInRange ∧ (rest.head? = some .clock → ∃ s', s.clock = .ok s')) ↔
    ∀ s rest, Visits Synthesizer.apply start ops s (.clock :: rest) → ¬ s.Overshoots :=
  (InRange.of_isStart (isStart_of_initial h)).visits_iff ops

/-- A period is doubled by a sweep that is set right before a half frame, and stays in range. -/
theorem periodsInRange_of_doubling :
    let ops := [.write 0x4001 0x08, .write 0x4002 0xFF, .write 0x4003 0x03] ++ doubling 44736
    ∃ start s, initial 1024 = .ok start ∧ ops.foldlM apply start = .ok s ∧
      s.pulse1.seq.reload = 0x7FE ∧ ∀ t rest, Visits apply start ops t rest →
        t.PeriodsInRange ∧ (rest.head? = some .clock → ∃ t', t.clock = .ok t') := by
  intro ops
  obtain ⟨start, made⟩ : ∃ start, initial 1024 = .ok start := ⟨_, rfl⟩
  let set := ((start.write 0x4001 0x08).write 0x4002 0xFF).write 0x4003 0x03
  have waits : set.AwaitsDoubling 0x3FF 0 := .of_isStart (isStart_of_initial made) 0x03
  have quiet : ∀ t, 0 ≤ t → t ≤ 0 + 44735 → eventOfTick? t ≠ some .half := by
    intro t _ below half
    have := eventOfTick?_eq_half_iff.mp half
    omega
  obtain ⟨s, run, waits'⟩ := waits.exists_doubling 44735 (by decide) (by decide) (by decide) quiet
    (by decide)
  have written : [.write 0x4001 0x08, .write 0x4002 0xFF, .write 0x4003 0x03].foldlM apply start =
      .ok set := rfl
  refine ⟨start, s, made, foldlM_append_eq_ok.mpr ⟨set, written, run⟩,
    UInt16.toNat_inj.mp waits'.pulse1.reload_eq, (periodsInRange_iff_no_overshoot made ops).mpr ?_⟩
  intro t rest visit
  -- There is no tick among the writes, and in the doubling none overshoots.
  rcases visit.of_append with ⟨left, some_left, ⟨before, split, -⟩, here⟩ | ⟨set', written', visit⟩
  · obtain ⟨op, left, rfl⟩ := List.exists_cons_of_ne_nil some_left
    obtain ⟨rfl, -⟩ := List.cons.inj here
    have member : Operation.clock ∈ before ++ .clock :: left :=
      List.mem_append_right before List.mem_cons_self
    rw [← split] at member
    exact absurd member (by decide)
  · obtain rfl := Except.ok.inj (written.symm.trans written')
    exact waits.not_overshoots_of_doubling (by decide) (by decide) (by decide) quiet visit

/-- A half frame in the middle of a frame and one at its end, each right after its sweep was set. -/
def fiveDoublings : List Operation :=
  [.write 0x4001 0x08, .write 0x4002 0xFF, .write 0x4003 0x07] ++ doubling 44736 ++
    doubling 44753 ++ doubling 44741 ++ doubling 44753 ++
    (List.replicate 44741 .clock ++ [.write 0x4001 0x81])

/-- Register writes right before half frames make the longest period sixteen times as long, and the
tick after that has no result. -/
theorem fiveDoublings_overflow :
    ∃ start s, initial 1024 = .ok start ∧
      Visits apply start (fiveDoublings ++ [.clock]) s [.clock] ∧
      s.pulse1.seq.reload = 0x7FF0 ∧ ∀ s', s.clock ≠ .ok s' := by
  have quiet : ∀ first last : Nat, (∀ t, first ≤ t → t ≤ last →
      ¬ (t % 6 = 0 ∧ (t / 6 % 14916 = 7456 ∨ t / 6 % 14916 = 14915))) →
      ∀ t, first ≤ t → t ≤ last → eventOfTick? t ≠ some .half :=
    fun _ _ idle t above below half => idle t above below (eventOfTick?_eq_half_iff.mp half)
  obtain ⟨start, made⟩ : ∃ start, initial 1024 = .ok start := ⟨_, rfl⟩
  let set := ((start.write 0x4001 0x08).write 0x4002 0xFF).write 0x4003 0x07
  have waits : set.AwaitsDoubling 0x7FF 0 := .of_isStart (isStart_of_initial made) 0x07
  -- A half frame comes after 44736 ticks, and from one to the next there are 44754 or 44742.
  obtain ⟨s₁, run₁, h₁⟩ := waits.exists_doubling 44735 (by decide) (by decide) (by decide)
    (quiet _ _ (by omega)) (by decide)
  obtain ⟨s₂, run₂, h₂⟩ := h₁.exists_doubling 44752 (by decide) (by decide) (by decide)
    (quiet _ _ (by omega)) (by decide)
  obtain ⟨s₃, run₃, h₃⟩ := h₂.exists_doubling 44740 (by decide) (by decide) (by decide)
    (quiet _ _ (by omega)) (by decide)
  obtain ⟨s₄, run₄, h₄⟩ := h₃.exists_doubling 44752 (by decide) (by decide) (by decide)
    (quiet _ _ (by omega)) (by decide)
  obtain ⟨s₅, run₅, reload, stuck⟩ := h₄.exists_overflow 44740 (by decide) (by decide) (by decide)
    (by decide) (quiet _ _ (by omega)) (by decide)
  refine ⟨start, s₅, made, ⟨fiveDoublings, rfl, ?_⟩, UInt16.toNat_inj.mp reload, stuck⟩
  have run₀ : [.write 0x4001 0x08, .write 0x4002 0xFF, .write 0x4003 0x07].foldlM apply start =
      .ok set := rfl
  unfold fiveDoublings
  simp only [foldlM_append_eq_ok] at run₅ ⊢
  exact ⟨s₄, ⟨s₃, ⟨s₂, ⟨s₁, ⟨set, run₀, run₁⟩, run₂⟩, run₃⟩, run₄⟩, run₅⟩

end Synthesizer

end Famicom.Audio
