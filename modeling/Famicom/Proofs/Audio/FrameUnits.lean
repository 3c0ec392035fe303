import Famicom.Proofs.Audio.PeriodRange

/-!
# The units that frame events move

Envelopes and the linear counter move in quarter frames, length counters and sweeps in half frames.
Which tick brings which is told by the number of ticks since power-on or reset and by nothing else:
whatever is written, heard or delivered between two ticks, the frame sequencer does not notice, and
nothing but a tick moves a unit.

## Main definitions

* `quarterDue`, `halfDue` — whether the tick after a number of ticks brings a quarter or half frame
* `Synthesizer.MovesUnits` — a tick moves each unit of its event once, and no other
* `Synthesizer.SparesUnits` — an operation sets units up at most, and moves none
* `Synthesizer.ticksSinceReset` — the ticks that a list of operations makes after its last reset

## Main results

* `Synthesizer.movesUnits_clock`, `Synthesizer.sparesUnits_apply` — one operation
* `Synthesizer.CountsTicks.run` — every run counts its ticks
* `Synthesizer.frameEvents_onTime` — every run brings its frame events on time
-/

namespace Famicom.Audio

open FrameSequencer (frameLength eventAt)

/-! ### Events by the number of ticks -/

/-- The tick after `n` others brings a quarter frame. -/
def quarterDue (n : Nat) : Bool :=
  n % 6 = 0 ∧ (n / 6 + 1) % 14916 ∈ [3729, 7457, 11186, 0]

/-- The tick after `n` others brings a half frame. -/
def halfDue (n : Nat) : Bool :=
  n % 6 = 0 ∧ (n / 6 + 1) % 14916 ∈ [7457, 0]

theorem isQuarter_eventAt (position : Nat) :
    (eventAt position).isQuarter = true ↔ position ∈ [3729, 7457, 11186, frameLength] := by
  unfold eventAt
  split_ifs <;> grind [FrameEvent.isQuarter]

theorem isHalf_eventAt (position : Nat) :
    (eventAt position).isHalf = true ↔ position ∈ [7457, frameLength] := by
  simp [FrameEvent.isHalf, eventAt_eq_half_iff]

/-- The last position of a frame is its length where a remainder would be zero. -/
theorem isQuarter_eventOfTick? (n : Nat) :
    ((eventOfTick? n).getD .idle).isQuarter = quarterDue n := by
  unfold eventOfTick? quarterDue
  split
  · rename_i due
    rw [Bool.eq_iff_iff, Option.getD_some, isQuarter_eventAt, decide_eq_true_iff]
    simp only [List.mem_cons, List.not_mem_nil, or_false, frameLength]
    omega
  · rename_i between
    simp [between, FrameEvent.isQuarter]

theorem isHalf_eventOfTick? (n : Nat) : ((eventOfTick? n).getD .idle).isHalf = halfDue n := by
  unfold eventOfTick? halfDue
  split
  · rename_i due
    rw [Bool.eq_iff_iff, Option.getD_some, isHalf_eventAt, decide_eq_true_iff]
    simp only [List.mem_cons, List.not_mem_nil, or_false, frameLength]
    omega
  · rename_i between
    simp [between, FrameEvent.isHalf]

/-! ### The units of a voice -/

namespace LengthCounter

/-- A length counter is kept or, by a write, cut off or set to the note of the byte that is
written. -/
def SetBy (l : LengthCounter) (written : Option UInt8) (l' : LengthCounter) : Prop :=
  l' = l ∨ ∃ data, written = some data ∧ (l' = ⟨0⟩ ∨ l' = .ofByte data)

variable {l : LengthCounter} {data : UInt8}

theorem SetBy.refl (l : LengthCounter) (written : Option UInt8) : l.SetBy written l :=
  .inl rfl

/-- A note starts on a voice that is switched on. -/
theorem SetBy.start (enabled : Bool) :
    l.SetBy (some data) (if enabled then .ofByte data else l) := by
  cases enabled with
  | false => exact .inl rfl
  | true => exact .inr ⟨data, rfl, .inr rfl⟩

/-- A note ends on a voice that is switched off. -/
theorem SetBy.switch (enabled : Bool) : l.SetBy (some data) (if enabled then l else ⟨0⟩) := by
  cases enabled with
  | false => exact .inr ⟨data, rfl, .inl rfl⟩
  | true => exact .inl rfl

end LengthCounter

namespace Pulse

/-- The new period, if the sweep makes one, and the sweep after a half frame or none. -/
def moveSweep (p : Pulse) (half : Bool) : Except Fault (Option UInt16 × Sweep) :=
  if half then p.sweep.clock p.seq.reload p.onesComplement else .ok (none, p.sweep)

/-- Period and sweep after a tick, in which the sweep moves at most once and is found again. -/
def tickSweep (p : Pulse) (half : Bool) : Except Fault (UInt16 × Sweep) := do
  let (updated, sweep) ← p.moveSweep half
  let period := updated.getD p.seq.reload
  pure (period, ← sweep.track period p.onesComplement)

/-- A tick moves the envelope in a quarter frame, length counter and sweep in a half frame. -/
structure MovesUnits (p : Pulse) (quarter half : Bool) (p' : Pulse) : Prop where
  envelope : p'.env = if quarter then p.env.clock p.halt else p.env
  length : p'.length = if half then p.length.clock p.enabled p.halt else p.length
  sweep : p.tickSweep half = .ok (p'.seq.reload, p'.sweep)

/-- The settings of envelope and sweep may change, and nothing that they count. -/
structure SparesUnits (p : Pulse) (written : Option UInt8) (p' : Pulse) : Prop where
  envelope : ∃ start disable volume, p'.env = { p.env with start, disable, volume }
  length : p.length.SetBy written p'.length
  sweep : ∃ enabled down reload shift period,
    p'.sweep = { p.sweep with enabled, down, reload, shift, period }

variable {p p' : Pulse}

/-- What a tick does to the units before the sweep is found again. -/
structure Advances (p : Pulse) (event : FrameEvent) (p' : Pulse) : Prop where
  envelope : p'.env = if event.isQuarter then p.env.clock p.halt else p.env
  length : p'.length = if event.isHalf then p.length.clock p.enabled p.halt else p.length
  sweep : ∃ updated, p.moveSweep event.isHalf = .ok (updated, p'.sweep) ∧
    p'.seq.reload = updated.getD p.seq.reload
  onesComplement : p'.onesComplement = p.onesComplement

theorem Advances.idle (p : Pulse) : p.Advances .idle p :=
  ⟨rfl, rfl, ⟨none, rfl, rfl⟩, rfl⟩

theorem advances_handle {event : FrameEvent} (h : p.handle event = .ok p') :
    p.Advances event p' := by
  cases event with
  | idle => exact Except.ok.inj h ▸ .idle p
  | quarter => exact Except.ok.inj h ▸ ⟨rfl, rfl, ⟨none, rfl, rfl⟩, rfl⟩
  | half =>
    obtain ⟨⟨updated, sweep⟩, moved, made⟩ := bind_eq_ok.mp h
    obtain rfl := Except.ok.inj made
    exact ⟨rfl, rfl, ⟨updated, moved, rfl⟩, rfl⟩

theorem advances_advance {event : Option FrameEvent} {t : Float}
    (h : p.advance event t = .ok p') : p.Advances (event.getD .idle) p' := by
  cases event with
  | none => exact Except.ok.inj h ▸ .idle p
  | some event =>
    obtain ⟨p₁, handled, clocked⟩ := bind_eq_ok.mp h
    obtain ⟨seq, output, made, reload⟩ := p₁.exists_clock t
    obtain rfl := Except.ok.inj (made.symm.trans clocked)
    obtain ⟨envelope, length, ⟨updated, moved, period⟩, same⟩ := advances_handle handled
    exact ⟨envelope, length, ⟨updated, moved, reload.trans period⟩, same⟩

/-- A tick moves the units of its event. -/
theorem movesUnits_tick {event : Option FrameEvent} {t : Float} (h : p.tick event t = .ok p') :
    p.MovesUnits (event.getD .idle).isQuarter (event.getD .idle).isHalf p' := by
  obtain ⟨p₁, advanced, tracked⟩ := bind_eq_ok.mp h
  obtain ⟨envelope, length, ⟨updated, moved, period⟩, same⟩ := advances_advance advanced
  obtain ⟨sweep, found, made⟩ := bind_eq_ok.mp tracked
  obtain rfl := Except.ok.inj made
  refine ⟨envelope, length, ?_⟩
  rw [period, same] at found
  rw [period]
  exact bind_eq_ok.mpr ⟨_, moved, bind_eq_ok.mpr ⟨sweep, found, rfl⟩⟩

theorem SparesUnits.refl (p : Pulse) (written : Option UInt8) : p.SparesUnits written p :=
  ⟨⟨_, _, _, rfl⟩, .refl _ _, _, _, _, _, _, rfl⟩

theorem sparesUnits_write (p : Pulse) (register : Register) (data : UInt8) :
    p.SparesUnits (some data) (p.write register data) := by
  cases register with
  | control => exact ⟨⟨_, _, _, rfl⟩, .refl _ _, _, _, _, _, _, rfl⟩
  | sweep => exact ⟨⟨_, _, _, rfl⟩, .refl _ _, _, _, _, _, _, rfl⟩
  | timerLow => exact ⟨⟨_, _, _, rfl⟩, .refl _ _, _, _, _, _, _, rfl⟩
  | timerHigh => exact ⟨⟨_, _, _, rfl⟩, .start p.enabled, _, _, _, _, _, rfl⟩

theorem sparesUnits_setEnabled (p : Pulse) (enabled : Bool) (data : UInt8) :
    p.SparesUnits (some data) (p.setEnabled enabled) :=
  ⟨⟨_, _, _, rfl⟩, .switch enabled, _, _, _, _, _, rfl⟩

end Pulse

namespace Triangle

/-- A tick moves the linear counter in a quarter frame and the length counter in a half frame. -/
structure MovesUnits (v : Triangle) (quarter half : Bool) (v' : Triangle) : Prop where
  linear : v'.linearCounter = if quarter then v.quarterFrame.linearCounter else v.linearCounter
  flag : v'.linearReloadFlag =
    if quarter then v.quarterFrame.linearReloadFlag else v.linearReloadFlag
  length : v'.length = if half then v.length.clock v.enabled v.control else v.length

/-- The linear counter stays, and the length counter but for a write to it. -/
structure SparesUnits (v : Triangle) (written : Option UInt8) (v' : Triangle) : Prop where
  linear : v'.linearCounter = v.linearCounter
  length : v.length.SetBy written v'.length

theorem movesUnits_tick (v : Triangle) (event : Option FrameEvent) (t : Float) :
    v.MovesUnits (event.getD .idle).isQuarter (event.getD .idle).isHalf (v.tick event t) := by
  have clocked (v : Triangle) :
      ∃ lastOutput output, v.clock t = { v with lastOutput, output } := by
    unfold clock
    split <;> exact ⟨_, _, rfl⟩
  cases event with
  | none => exact ⟨rfl, rfl, rfl⟩
  | some event =>
    obtain ⟨lastOutput, output, made⟩ := clocked (v.handle event)
    rw [tick, made]
    cases event <;> exact ⟨rfl, rfl, rfl⟩

theorem SparesUnits.refl (v : Triangle) (written : Option UInt8) : v.SparesUnits written v :=
  ⟨rfl, .refl _ _⟩

theorem sparesUnits_write (v : Triangle) (register : Register) (data : UInt8) :
    v.SparesUnits (some data) (v.write register data) := by
  cases register with
  | linear => exact ⟨rfl, .refl _ _⟩
  | timerLow => exact ⟨rfl, .refl _ _⟩
  | timerHigh => exact ⟨rfl, .start v.enabled⟩

theorem sparesUnits_setEnabled (v : Triangle) (enabled : Bool) (data : UInt8) :
    v.SparesUnits (some data) (v.setEnabled enabled) :=
  ⟨rfl, .switch enabled⟩

end Triangle

namespace Noise

/-- A tick moves the envelope in a quarter frame and the length counter in a half frame. -/
structure MovesUnits (v : Noise) (quarter half : Bool) (v' : Noise) : Prop where
  envelope : v'.env = if quarter then v.env.clock v.halt else v.env
  length : v'.length = if half then v.length.clock v.enabled v.halt else v.length

/-- The settings of the envelope may change, and nothing that it counts. -/
structure SparesUnits (v : Noise) (written : Option UInt8) (v' : Noise) : Prop where
  envelope : ∃ start disable volume, v'.env = { v.env with start, disable, volume }
  length : v.length.SetBy written v'.length

theorem movesUnits_tick {v v' : Noise} {event : Option FrameEvent} (h : v.tick event = .ok v') :
    v.MovesUnits (event.getD .idle).isQuarter (event.getD .idle).isHalf v' := by
  cases event with
  | none => exact Except.ok.inj h ▸ ⟨rfl, rfl⟩
  | some event =>
    obtain ⟨seq, -, made⟩ := bind_eq_ok.mp h
    obtain rfl := Except.ok.inj made
    cases event <;> exact ⟨rfl, rfl⟩

theorem SparesUnits.refl (v : Noise) (written : Option UInt8) : v.SparesUnits written v :=
  ⟨⟨_, _, _, rfl⟩, .refl _ _⟩

theorem sparesUnits_write (v : Noise) (register : Register) (data : UInt8) :
    v.SparesUnits (some data) (v.write register data) := by
  cases register with
  | control => exact ⟨⟨_, _, _, rfl⟩, .refl _ _⟩
  | period => exact ⟨⟨_, _, _, rfl⟩, .refl _ _⟩
  | length => exact ⟨⟨_, _, _, rfl⟩, .start v.enabled⟩

theorem sparesUnits_setEnabled (v : Noise) (enabled : Bool) (data : UInt8) :
    v.SparesUnits (some data) (v.setEnabled enabled) :=
  ⟨⟨_, _, _, rfl⟩, .switch enabled⟩

end Noise

/-! ### The units of all voices -/

namespace Synthesizer

/-- The byte that an operation writes to a register. -/
def Operation.written? : Operation → Option UInt8
  | .write _ data => some data
  | _ => none

/-- A tick moves each unit of its event once, and no other. -/
structure MovesUnits (s : Synthesizer) (quarter half : Bool) (s' : Synthesizer) : Prop where
  pulse1 : s.pulse1.MovesUnits quarter half s'.pulse1
  pulse2 : s.pulse2.MovesUnits quarter half s'.pulse2
  triangle : s.triangle.MovesUnits quarter half s'.triangle
  noise : s.noise.MovesUnits quarter half s'.noise

/-- An operation sets units up at most, and moves none. -/
structure SparesUnits (s : Synthesizer) (written : Option UInt8) (s' : Synthesizer) : Prop where
  pulse1 : s.pulse1.SparesUnits written s'.pulse1
  pulse2 : s.pulse2.SparesUnits written s'.pulse2
  triangle : s.triangle.SparesUnits written s'.triangle
  noise : s.noise.SparesUnits written s'.noise

variable {start s s' : Synthesizer}

theorem nextFrameEvent_eq (s : Synthesizer) : s.nextFrameEvent = s.frameEvent?.getD .idle := by
  unfold nextFrameEvent frameEvent?
  split <;> rfl

theorem movesUnits_clock (h : s.clock = .ok s') :
    s.MovesUnits s.nextFrameEvent.isQuarter s.nextFrameEvent.isHalf s' := by
  have tick := clock_eq_ok_iff.mp h
  rw [nextFrameEvent_eq]
  exact {
    pulse1 := Pulse.movesUnits_tick tick.pulse1
    pulse2 := Pulse.movesUnits_tick tick.pulse2
    triangle := tick.triangle ▸ s.triangle.movesUnits_tick _ _
    noise := Noise.movesUnits_tick tick.noise }

theorem SparesUnits.refl (s : Synthesizer) (written : Option UInt8) : s.SparesUnits written s :=
  ⟨.refl _ _, .refl _ _, .refl _ _, .refl _ _⟩

theorem sparesUnits_write (s : Synthesizer) (address : UInt16) (data : UInt8) :
    s.SparesUnits (some data) (s.write address data) := by
  unfold write
  split
  · rename_i register _
    cases register with
    | pulse1 r => exact ⟨s.pulse1.sparesUnits_write r data, .refl _ _, .refl _ _, .refl _ _⟩
    | pulse2 r => exact ⟨.refl _ _, s.pulse2.sparesUnits_write r data, .refl _ _, .refl _ _⟩
    | triangle r => exact ⟨.refl _ _, .refl _ _, s.triangle.sparesUnits_write r data, .refl _ _⟩
    | noise r => exact ⟨.refl _ _, .refl _ _, .refl _ _, s.noise.sparesUnits_write r data⟩
    | dmc r => exact ⟨.refl _ _, .refl _ _, .refl _ _, .refl _ _⟩
    | status =>
      exact ⟨s.pulse1.sparesUnits_setEnabled _ data, s.pulse2.sparesUnits_setEnabled _ data,
        s.triangle.sparesUnits_setEnabled _ data, s.noise.sparesUnits_setEnabled _ data⟩
  · exact .refl s _

/-- Nothing but ticks and resets moves units. -/
theorem sparesUnits_apply {op : Operation} (tick : op ≠ .clock) (reset : op ≠ .reset)
    (h : s.apply op = .ok s') : s.SparesUnits op.written? s' := by
  cases op with
  | clock => exact absurd rfl tick
  | reset => exact absurd rfl reset
  | write address data => exact Except.ok.inj h ▸ s.sparesUnits_write address data
  | sample | deliver _ | setHeard _ _ | setTapCapacity _ | drain _ =>
    exact Except.ok.inj h ▸ ⟨.refl _ _, .refl _ _, .refl _ _, .refl _ _⟩

/-! ### Counting ticks -/

/-- The number of ticks since power-on or reset after one more operation. -/
def ticksAfter (count : Nat) : Operation → Nat
  | .clock => count + 1
  | .reset => 0
  | _ => count

/-- The number of ticks that a list of operations makes after its last reset. -/
def ticksSinceReset (ops : List Operation) : Nat :=
  ops.foldl ticksAfter 0

/-- The unit knows the number of its ticks, as long as it can be counted in 64 bits. -/
def CountsTicks (s : Synthesizer) (count : Nat) : Prop :=
  count < 2 ^ 64 → s.IsAligned ∧ s.ticks.toNat = count

namespace CountsTicks

variable {count : Nat}

theorem of_isStart (h : s.IsStart) : s.CountsTicks 0 := fun _ =>
  ⟨h.isAligned, by rw [h.ticks_eq]; rfl⟩

theorem apply (h : s.CountsTicks count) {op : Operation} (run : s.apply op = .ok s') :
    s'.CountsTicks (ticksAfter count op) := by
  cases op with
  | clock =>
    intro few
    obtain ⟨aligned, ticks⟩ := h (Nat.lt_of_succ_lt few)
    have tick := clock_eq_ok_iff.mp run
    have room : s.ticks.toNat + 1 < 2 ^ 64 := ticks ▸ few
    exact ⟨aligned.of_isTick tick room, ticks ▸ tick.toNat_ticks room⟩
  | reset => exact of_isStart (isStart_of_reset run)
  | write address data =>
    intro few
    obtain ⟨aligned, ticks⟩ := h few
    obtain rfl := Except.ok.inj run
    exact ⟨aligned.of_eq (s.frame_write address data) (s.ticks_write address data),
      (congrArg UInt64.toNat (s.ticks_write address data)).trans ticks⟩
  | sample | deliver _ | setHeard _ _ | setTapCapacity _ | drain _ =>
    intro few
    obtain ⟨aligned, ticks⟩ := h few
    obtain rfl := Except.ok.inj run
    exact ⟨aligned.of_eq rfl rfl, ticks⟩

/-- A run counts its ticks, starting again at every reset. -/
theorem run (h : start.CountsTicks count) {ops : List Operation}
    (ran : ops.foldlM Synthesizer.apply start = .ok s) :
    s.CountsTicks (ops.foldl ticksAfter count) := by
  induction ops generalizing start count with
  | nil => exact foldlM_nil_eq_ok.mp ran ▸ h
  | cons op ops ih =>
    obtain ⟨middle, first, rest⟩ := foldlM_cons_eq_ok.mp ran
    exact ih (h.apply first) rest

end CountsTicks

/-- **Frame events are on time.** Let a unit have made fewer than 2 ^ 64 ticks since power-on or its
last reset, whatever else was done to it. Then the number of these ticks tells whether the next one
brings a quarter or a half frame. That tick moves the units of its event, each of them once, and
everything else that is not a reset leaves them where they are. -/
theorem frameEvents_onTime (fresh : start.IsStart) {ops : List Operation}
    (run : ops.foldlM apply start = .ok s) (few : ticksSinceReset ops < 2 ^ 64) :
    s.nextFrameEvent.isQuarter = quarterDue (ticksSinceReset ops) ∧
      s.nextFrameEvent.isHalf = halfDue (ticksSinceReset ops) ∧
      (∀ s', s.apply .clock = .ok s' →
        s.MovesUnits (quarterDue (ticksSinceReset ops)) (halfDue (ticksSinceReset ops)) s') ∧
      ∀ op s', op ≠ .clock → op ≠ .reset → s.apply op = .ok s' → s.SparesUnits op.written? s' := by
  obtain ⟨aligned, ticks⟩ := (CountsTicks.of_isStart fresh).run run few
  have event : s.nextFrameEvent = (eventOfTick? (ticksSinceReset ops)).getD .idle := by
    rw [nextFrameEvent_eq, aligned.frameEvent?_eq, ticks]
    rfl
  have quarter : s.nextFrameEvent.isQuarter = quarterDue (ticksSinceReset ops) := by
    rw [event, isQuarter_eventOfTick?]
  have half : s.nextFrameEvent.isHalf = halfDue (ticksSinceReset ops) := by
    rw [event, isHalf_eventOfTick?]
  refine ⟨quarter, half, fun s' clocked => ?_, fun op s' tick reset => sparesUnits_apply tick reset⟩
  rw [← quarter, ← half]
  exact movesUnits_clock clocked

theorem foldl_ticksAfter_replicate (n count : Nat) :
    (List.replicate n Operation.clock).foldl ticksAfter count = count + n := by
  induction n generalizing count with
  | zero => rfl
  | succ n ih =>
    rw [List.replicate_succ, List.foldl_cons, ih, ticksAfter]
    omega

/-- The first tick of a unit brings no half frame, in which a period might be too large. -/
theorem CountsTicks.not_overshoots (h : s.CountsTicks 0) : ¬ s.Overshoots := by
  obtain ⟨aligned, ticks⟩ := h (by decide)
  exact aligned.not_overshoots (by rw [ticks]; decide)

/-- What a log tells of ticks in a row is told by the number of ticks before them, if it is for each
of them. -/
theorem countP_runLog_clocks {ω : Type} {log : Synthesizer → Operation → List ω} {p : ω → Bool}
    {due : Nat → Bool}
    (tells : ∀ {s s' : Synthesizer}, s.IsAligned → s.clock = .ok s' →
      (log s .clock).countP p = if due s.ticks.toNat then 1 else 0)
    {count n : Nat} (counts : s.CountsTicks count) (few : count + n ≤ 2 ^ 64)
    (run : (List.replicate n Operation.clock).foldlM Synthesizer.apply s = .ok s') :
    (runLog Synthesizer.apply log (List.replicate n .clock) s).countP p =
      (List.range' count n).countP due := by
  induction n generalizing s count with
  | zero => rfl
  | succ n ih =>
    obtain ⟨middle, first, rest⟩ := foldlM_cons_eq_ok.mp run
    obtain ⟨aligned, ticks⟩ := counts (by omega)
    have here := tells aligned first
    have few' : count + 1 + n ≤ 2 ^ 64 := by omega
    have later : _ = (List.range' (count + 1) n).countP due := ih (counts.apply first) few' rest
    rw [ticks] at here
    rw [List.replicate_succ, runLog_cons_of_ok _ first, List.countP_append, here, later,
      List.range'_succ, List.countP_cons, Nat.add_comm]

/-- Of ticks in a row that bring no event before the last one, only that one does. -/
theorem countP_range'_eq_one {due : Nat → Bool} {count n : Nat}
    (quiet : ∀ i, count ≤ i → i < count + n → due i = false) (last : due (count + n) = true) :
    (List.range' count (n + 1)).countP due = 1 := by
  have silent : (List.range' count n).countP due = 0 := by
    rw [List.countP_eq_zero]
    intro i member
    obtain ⟨from_count, before⟩ := List.mem_range'_1.mp member
    rw [quiet i from_count before]
    exact Bool.false_ne_true
  rw [List.range'_concat, List.countP_append, silent, List.countP_singleton, Nat.one_mul, last]
  rfl

/-- A note of the noise voice, a write to the register that chooses a mode elsewhere, and ticks up
to the first quarter frame, which moves the envelope of the note and not its length. -/
theorem frameEvents_onTime_of_note :
    let ops := [Operation.write 0x4015 0x08, .write 0x400F 0x08, .write 0x4017 0xC0] ++
      List.replicate 22368 .clock
    ∃ start s s', start.IsStart ∧ ops.foldlM apply start = .ok s ∧
      ticksSinceReset ops < 2 ^ 64 ∧ s.nextFrameEvent.isQuarter = true ∧
      s.nextFrameEvent.isHalf = false ∧ s.apply .clock = .ok s' ∧
      s'.noise.env = s.noise.env.clock s.noise.halt ∧ s'.noise.length = s.noise.length := by
  intro ops
  obtain ⟨start, made⟩ : ∃ start, initial 1024 = .ok start := ⟨_, rfl⟩
  have begun := isStart_of_initial made
  let set := ((start.write 0x4015 0x08).write 0x400F 0x08).write 0x4017 0xC0
  have inRange : set.InRange := (((InRange.of_isStart begun).write _ _).write _ _).write _ _
  have aligned : set.IsAligned := begun.isAligned.of_eq rfl rfl
  have stays : ¬ set.Overshoots :=
    aligned.not_overshoots (by rw [show set.ticks = 0 from begun.ticks_eq]; decide)
  obtain ⟨s, waited, inRange', -⟩ := inRange.exists_clocks stays 22368
  have run : ops.foldlM apply start = .ok s := foldlM_append_eq_ok.mpr ⟨set, rfl, waited⟩
  have count : ticksSinceReset ops = 22368 := by
    rw [ticksSinceReset, List.foldl_append, foldl_ticksAfter_replicate]
    rfl
  have few : ticksSinceReset ops < 2 ^ 64 := by
    rw [count]
    decide
  obtain ⟨quarter, half, moves, -⟩ := frameEvents_onTime begun run few
  obtain ⟨s', clocked, -⟩ := inRange'.exists_clock
  have moved := (moves s' clocked).noise
  rw [count] at quarter half moved
  exact ⟨start, s, s', begun, run, few, quarter, half, clocked, moved.envelope, moved.length⟩

end Synthesizer

end Famicom.Audio
