import Famicom.Audio.Synthesizer
import Famicom.Proofs.Transition

/-!
# Runs of the sound unit

What can be done to the sound unit, in any order, and what one tick does to it: it acts on every
voice alone. A voice sees a tick as a clock of the frame sequencer with its event, or as none.

## Main definitions

* `Synthesizer.Operation`, `Synthesizer.apply` — what can be done to the unit
* `Synthesizer.IsStart` — the unit after construction or reset
* `Synthesizer.frameEvent?` — the event of the next tick, if it clocks the frame sequencer
* `Pulse.tick`, `Triangle.tick`, `Noise.tick`, `DeltaModulation.tick` — a tick as a voice sees it

## Main results

* `Synthesizer.IsStart.exists_eq`, `Synthesizer.exists_write` — a start, and a register write
* `Synthesizer.clock_eq_ok_iff` — a tick is one for every voice and for the counters
* `Noise.exists_tick` — the noise voice never fails
-/

namespace Famicom.Audio

/-! ### A tick as a voice sees it -/

namespace Pulse

/-- What an event of the frame sequencer does to the voice. -/
def handle (p : Pulse) : FrameEvent → Except Fault Pulse
  | .idle => .ok p
  | .quarter => .ok p.quarterFrame
  | .half => p.quarterFrame.halfFrame

/-- What a tick before the sweep is found again does to the voice. -/
def advance (p : Pulse) (event : Option FrameEvent) (t : Float) : Except Fault Pulse :=
  match event with
  | some event => do (← p.handle event).clock t
  | none => .ok p

/-- One tick. -/
def tick (p : Pulse) (event : Option FrameEvent) (t : Float) : Except Fault Pulse := do
  (← p.advance event t).trackSweep

end Pulse

namespace Triangle

/-- What an event of the frame sequencer does to the voice. -/
def handle (v : Triangle) : FrameEvent → Triangle
  | .idle => v
  | .quarter => v.quarterFrame
  | .half => v.quarterFrame.halfFrame

/-- One tick. -/
def tick (v : Triangle) (event : Option FrameEvent) (t : Float) : Triangle :=
  match event with
  | some event => (v.handle event).clock t
  | none => v

end Triangle

namespace Noise

/-- What an event of the frame sequencer does to the voice. -/
def handle (v : Noise) : FrameEvent → Noise
  | .idle => v
  | .quarter => v.quarterFrame
  | .half => v.quarterFrame.halfFrame

/-- One tick. -/
def tick (v : Noise) (event : Option FrameEvent) : Except Fault Noise :=
  match event with
  | some event => (v.handle event).clock
  | none => .ok v

/-- The shift register moves with either tap. -/
theorem exists_clock (v : Noise) : ∃ v', v.clock = .ok v' := by
  have rotated : ∀ s : UInt16, ∃ s', v.rotation.apply s = .ok s' := by
    intro s
    unfold rotation
    cases v.mode <;> exact ⟨_, rfl⟩
  -- Only a timer that has run out moves the register, and both modes have a tap inside it.
  obtain ⟨sequence, found⟩ := rotated v.seq.sequence
  have moved : ∃ seq, v.seq.clock v.enabled v.rotation = .ok seq := by
    unfold Sequencer.clock
    split
    · split
      · exact ⟨_, bind_eq_ok.mpr ⟨sequence, found, rfl⟩⟩
      · exact ⟨_, rfl⟩
    · exact ⟨_, rfl⟩
  obtain ⟨seq, moved⟩ := moved
  exact ⟨_, bind_eq_ok.mpr ⟨seq, moved, rfl⟩⟩

/-- The voice never fails. -/
theorem exists_tick (v : Noise) (event : Option FrameEvent) : ∃ v', v.tick event = .ok v' := by
  cases event with
  | none => exact ⟨v, rfl⟩
  | some event => exact exists_clock _

end Noise

namespace DeltaModulation

/-- One tick, which may be a processor clock. -/
def tick (d : DeltaModulation) (due : Bool) : Except Fault DeltaModulation :=
  if due then d.clock else .ok d

/-- The switch moves nothing that plays. -/
theorem exists_setEnabled (d : DeltaModulation) (enabled : Bool) :
    ∃ currentAddress bytesRemaining, d.setEnabled enabled =
      { d with enabled, irqFlag := false, currentAddress, bytesRemaining } := by
  unfold setEnabled
  dsimp only
  split
  · exact ⟨_, _, rfl⟩
  · split
    · exact ⟨_, _, rfl⟩
    · exact ⟨_, _, rfl⟩

/-- A delivered byte goes into the buffer and moves nothing else that plays. -/
theorem exists_deliver (d : DeltaModulation) (byte : UInt8) :
    ∃ currentAddress bytesRemaining irqFlag, d.deliver byte =
      { d with buffer := some byte, currentAddress, bytesRemaining, irqFlag } := by
  unfold deliver
  generalize (if d.bytesRemaining = 0 then 0 else d.bytesRemaining - 1) = left
  dsimp only
  split
  · unfold finish
    split
    · exact ⟨_, _, _, rfl⟩
    · split
      · exact ⟨_, _, _, rfl⟩
      · exact ⟨_, _, _, rfl⟩
  · exact ⟨_, _, _, rfl⟩

theorem bitsRemaining_write (d : DeltaModulation) (register : Register) (data : UInt8) :
    (d.write register data).bitsRemaining = d.bitsRemaining := by
  cases register <;> rfl

theorem bitsRemaining_setEnabled (d : DeltaModulation) (enabled : Bool) :
    (d.setEnabled enabled).bitsRemaining = d.bitsRemaining := by
  obtain ⟨_, _, set⟩ := d.exists_setEnabled enabled
  rw [set]

theorem bitsRemaining_deliver (d : DeltaModulation) (byte : UInt8) :
    (d.deliver byte).bitsRemaining = d.bitsRemaining := by
  obtain ⟨_, _, _, delivered⟩ := d.exists_deliver byte
  rw [delivered]

/-- Eight bits are to be played next, of the byte in the buffer or of silence. -/
theorem exists_takeBuffer (d : DeltaModulation) :
    ∃ buffer shifter silence,
      d.takeBuffer = { d with bitsRemaining := 8, buffer, shifter, silence } := by
  unfold takeBuffer
  split <;> exact ⟨_, _, _, rfl⟩

theorem bitsRemaining_takeBuffer (d : DeltaModulation) : d.takeBuffer.bitsRemaining = 8 := by
  obtain ⟨_, _, _, taken⟩ := d.exists_takeBuffer
  rw [taken]

/-- While bits remain, a bit can be played, and then bits remain again. -/
theorem exists_playBit {d : DeltaModulation} (bits : d.bitsRemaining ≠ 0) :
    ∃ d', d.playBit = .ok d' ∧ d'.bitsRemaining ≠ 0 := by
  unfold playBit
  simp only [Checked.pred8_of_ne bits, bind, Except.bind]
  refine ⟨_, rfl, ?_⟩
  split
  · rw [bitsRemaining_takeBuffer]
    decide
  · assumption

/-- The next processor clock plays a bit. -/
def isDue (d : DeltaModulation) : Bool :=
  d.timerCounter ≤ 1

/-- A processor clock plays a bit or counts the timer down. -/
theorem clock_eq (d : DeltaModulation) :
    d.clock =
      if d.isDue then { d with timerCounter := d.timerPeriod }.playBit
      else .ok { d with timerCounter := d.timerCounter - 1 } := by
  have out : (if d.timerCounter = 0 then 0 else d.timerCounter - 1) = 0 ↔ d.isDue := by
    rw [isDue, decide_eq_true_iff]
    grind
  unfold clock
  by_cases due : d.isDue
  · simp only [out.mpr due, due, if_true]
  · -- A counter at zero would be due as well.
    have running : d.timerCounter ≠ 0 := by
      intro zero
      exact due (out.mp (if_pos zero))
    simp only [due, running, if_false, pure_eq_ok]
    rw [if_neg (by grind)]
    rfl

/-- Playing does not touch what is fetched, nor the interrupt. -/
theorem exists_of_tick {d d' : DeltaModulation} {due : Bool} (ticked : d.tick due = .ok d') :
    ∃ timerCounter level buffer shifter bitsRemaining silence,
      d' = { d with timerCounter, level, buffer, shifter, bitsRemaining, silence } := by
  cases due with
  | false => exact ⟨_, _, _, _, _, _, (Except.ok.inj ticked).symm⟩
  | true =>
    rw [tick, if_pos rfl, clock_eq] at ticked
    split at ticked
    · obtain ⟨bits, -, played⟩ := bind_eq_ok.mp ticked
      obtain rfl := Except.ok.inj played
      split
      · obtain ⟨_, _, _, taken⟩ := exists_takeBuffer _
        exact ⟨_, _, _, _, _, _, taken⟩
      · exact ⟨_, _, _, _, _, _, rfl⟩
    · exact ⟨_, _, _, _, _, _, (Except.ok.inj ticked).symm⟩

/-- While bits remain the voice does not fail, and bits remain after the tick. -/
theorem exists_tick {d : DeltaModulation} (bits : d.bitsRemaining ≠ 0) (due : Bool) :
    ∃ d', d.tick due = .ok d' ∧ d'.bitsRemaining ≠ 0 := by
  cases due with
  | false => exact ⟨d, rfl, bits⟩
  | true =>
    rw [tick, if_pos rfl, clock_eq]
    split
    · exact exists_playBit bits
    · exact ⟨_, rfl, bits⟩

end DeltaModulation

namespace Synthesizer

/-! ### Operations -/

/-- What can be done to the sound unit. -/
inductive Operation where
  | write (address : UInt16) (data : UInt8)
  | clock
  | sample
  | deliver (byte : UInt8)
  | reset
  | setHeard (channel : Channel) (heard : Bool)
  | setTapCapacity (capacity : Nat)
  | drain (channel : Channel)
  deriving DecidableEq, Repr

/-- The unit after an operation. -/
def apply (s : Synthesizer) : Operation → Except Fault Synthesizer
  | .write address data => .ok (s.write address data)
  | .clock => s.clock
  | .sample => .ok s.sample.2
  | .deliver byte => .ok (s.deliver byte)
  | .reset => s.reset
  | .setHeard channel heard => .ok (s.setHeard channel heard)
  | .setTapCapacity capacity => .ok (s.setTapCapacity capacity)
  | .drain channel => .ok (s.drain channel).2

/-- The unit is as construction or reset leaves it. -/
def IsStart (s : Synthesizer) : Prop :=
  (∃ capacity, initial capacity = .ok s) ∨ ∃ before, reset before = .ok s

theorem isStart_of_initial {s : Synthesizer} {capacity : Nat} (made : initial capacity = .ok s) :
    s.IsStart :=
  .inl ⟨capacity, made⟩

theorem isStart_of_reset {before s : Synthesizer} (made : before.reset = .ok s) : s.IsStart :=
  .inr ⟨before, made⟩

/-- Construction and reset leave the same unit but for switches and taps. -/
theorem IsStart.exists_eq {s : Synthesizer} (h : s.IsStart) :
    ∃ switches taps, s = { switches, taps } := by
  rcases h with ⟨capacity, made⟩ | ⟨before, made⟩
  · obtain ⟨tap, -, made⟩ := bind_eq_ok.mp made
    exact ⟨_, _, (Except.ok.inj made).symm⟩
  · obtain ⟨taps, -, made⟩ := bind_eq_ok.mp made
    exact ⟨_, _, (Except.ok.inj made).symm⟩

/-- A register write reaches nothing but the voices. -/
theorem exists_write (s : Synthesizer) (address : UInt16) (data : UInt8) :
    ∃ pulse1 pulse2 triangle noise dmc,
      s.write address data = { s with pulse1, pulse2, triangle, noise, dmc } := by
  unfold write
  split
  · rename_i register _
    cases register <;> exact ⟨_, _, _, _, _, rfl⟩
  · exact ⟨_, _, _, _, _, rfl⟩

/-! ### One tick -/

/-- The event of the next tick, if it clocks the frame sequencer. -/
def frameEvent? (s : Synthesizer) : Option FrameEvent :=
  if s.ticks % 6 = 0 then some s.frame.clock.1 else none

/-- The next tick is a processor clock. -/
def clocksDmc (s : Synthesizer) : Bool :=
  s.ticks % 3 = 0

/-- The second unit is the first one after a tick. -/
structure IsTick (s s' : Synthesizer) : Prop where
  pulse1 : s.pulse1.tick s.frameEvent? s'.time = .ok s'.pulse1
  pulse2 : s.pulse2.tick s.frameEvent? s'.time = .ok s'.pulse2
  triangle : s'.triangle = s.triangle.tick s.frameEvent? s'.time
  noise : s.noise.tick s.frameEvent? = .ok s'.noise
  dmc : s.dmc.tick s.clocksDmc = .ok s'.dmc
  time : s'.time = s.time + secondsPerTick
  ticks : s'.ticks = s.ticks + 1
  frame : s'.frame = if s.ticks % 6 = 0 then s.frame.clock.2 else s.frame
  switches : s'.switches = s.switches
  taps : s'.taps = s.taps

theorem handleFrameEvent_eq_ok_iff {s s' : Synthesizer} {event : FrameEvent} :
    s.handleFrameEvent event = .ok s' ↔
      ∃ pulse1 pulse2, s.pulse1.handle event = .ok pulse1 ∧ s.pulse2.handle event = .ok pulse2 ∧
        { s with
          pulse1, pulse2
          triangle := s.triangle.handle event
          noise := s.noise.handle event } = s' := by
  cases event with
  | idle => simp [handleFrameEvent, Pulse.handle, Triangle.handle, Noise.handle]
  | quarter =>
    simp [handleFrameEvent, Pulse.handle, Triangle.handle, Noise.handle, quarterFrame]
  | half =>
    simp [handleFrameEvent, Pulse.handle, Triangle.handle, Noise.handle, quarterFrame, halfFrame,
      bind_eq_ok, pure_eq_ok]

theorem clockVoices_eq_ok_iff {s s' : Synthesizer} :
    s.clockVoices = .ok s' ↔
      ∃ pulse1 pulse2 noise, s.pulse1.clock s.time = .ok pulse1 ∧
        s.pulse2.clock s.time = .ok pulse2 ∧ s.noise.clock = .ok noise ∧
        { s with pulse1, pulse2, triangle := s.triangle.clock s.time, noise } = s' := by
  simp [clockVoices, bind_eq_ok, pure_eq_ok]

theorem trackSweeps_eq_ok_iff {s s' : Synthesizer} :
    s.trackSweeps = .ok s' ↔
      ∃ pulse1 pulse2, s.pulse1.trackSweep = .ok pulse1 ∧ s.pulse2.trackSweep = .ok pulse2 ∧
        { s with pulse1, pulse2 } = s' := by
  simp [trackSweeps, bind_eq_ok, pure_eq_ok]

/-- The part of a tick that is a processor clock. -/
def tickDmc (s : Synthesizer) : Except Fault Synthesizer :=
  if s.ticks % 3 = 0 then s.clockDmc else .ok s

/-- The part of a tick that is a clock of the frame sequencer. -/
def tickFrame (s : Synthesizer) : Except Fault Synthesizer :=
  if s.ticks % 6 = 0 then s.clockFrame else .ok s

theorem tickDmc_bind {α : Type} (s : Synthesizer) (rest : Synthesizer → Except Fault α) :
    s.tickDmc >>= rest = if s.ticks % 3 = 0 then s.clockDmc >>= rest else rest s := by
  unfold tickDmc
  split <;> rfl

theorem tickFrame_bind {α : Type} (s : Synthesizer) (rest : Synthesizer → Except Fault α) :
    s.tickFrame >>= rest = if s.ticks % 6 = 0 then s.clockFrame >>= rest else rest s := by
  unfold tickFrame
  split <;> rfl

/-- A tick is the sequence of its parts. -/
theorem clock_eq (s : Synthesizer) :
    s.clock = { s with time := s.time + secondsPerTick }.tickDmc >>= fun s =>
      s.tickFrame >>= fun s => s.trackSweeps >>= fun s => .ok { s with ticks := s.ticks + 1 } := by
  rw [tickDmc_bind]
  simp only [tickFrame_bind]
  rfl

theorem tickDmc_eq_ok_iff {s s' : Synthesizer} :
    s.tickDmc = .ok s' ↔ ∃ dmc, s.dmc.tick s.clocksDmc = .ok dmc ∧ { s with dmc } = s' := by
  by_cases due : s.ticks % 3 = 0
  · simp [tickDmc, DeltaModulation.tick, clocksDmc, due, clockDmc, bind_eq_ok, pure_eq_ok]
  · simp [tickDmc, DeltaModulation.tick, clocksDmc, due]

theorem tickFrame_eq_ok_iff {s s' : Synthesizer} :
    s.tickFrame = .ok s' ↔
      ∃ pulse1 pulse2 noise, s.pulse1.advance s.frameEvent? s.time = .ok pulse1 ∧
        s.pulse2.advance s.frameEvent? s.time = .ok pulse2 ∧
        s.noise.tick s.frameEvent? = .ok noise ∧
        { s with
          pulse1, pulse2
          triangle := s.triangle.tick s.frameEvent? s.time
          noise
          frame := if s.ticks % 6 = 0 then s.frame.clock.2 else s.frame } = s' := by
  by_cases due : s.ticks % 6 = 0
  · -- Each voice handles the event and is clocked; the unit does the first to all of them first.
    simp only [tickFrame, due, if_true, clockFrame, frameEvent?, bind_eq_ok,
      handleFrameEvent_eq_ok_iff, clockVoices_eq_ok_iff, Pulse.advance, Noise.tick, Triangle.tick]
    constructor
    · rintro ⟨_, ⟨p, q, hp, hq, rfl⟩, pulse1, pulse2, noise, h1, h2, hn, rfl⟩
      exact ⟨pulse1, pulse2, noise, ⟨p, hp, h1⟩, ⟨q, hq, h2⟩, hn, rfl⟩
    · rintro ⟨pulse1, pulse2, noise, ⟨p, hp, h1⟩, ⟨q, hq, h2⟩, hn, rfl⟩
      exact ⟨_, ⟨p, q, hp, hq, rfl⟩, pulse1, pulse2, noise, h1, h2, hn, rfl⟩
  · simp [tickFrame, due, frameEvent?, Pulse.advance, Noise.tick, Triangle.tick]

/-- A tick acts on every voice alone. -/
theorem clock_eq_ok_iff {s s' : Synthesizer} : s.clock = .ok s' ↔ IsTick s s' := by
  rw [clock_eq]
  simp only [bind_eq_ok, tickDmc_eq_ok_iff, tickFrame_eq_ok_iff, trackSweeps_eq_ok_iff,
    Except.ok.injEq]
  constructor
  · rintro ⟨_, ⟨dmc, hd, rfl⟩, _, ⟨p, q, noise, hp, hq, hn, rfl⟩, _, ⟨p', q', hp', hq', rfl⟩, rfl⟩
    exact {
      pulse1 := bind_eq_ok.mpr ⟨p, hp, hp'⟩
      pulse2 := bind_eq_ok.mpr ⟨q, hq, hq'⟩
      triangle := rfl
      noise := hn
      dmc := hd
      time := rfl
      ticks := rfl
      frame := rfl
      switches := rfl
      taps := rfl }
  · intro h
    obtain ⟨p, hp, hp'⟩ := bind_eq_ok.mp h.pulse1
    obtain ⟨q, hq, hq'⟩ := bind_eq_ok.mp h.pulse2
    rw [h.time] at hp hq
    -- What is left is that the unit is put together from its fields.
    refine ⟨_, ⟨s'.dmc, h.dmc, rfl⟩, _, ⟨p, q, s'.noise, hp, hq, h.noise, rfl⟩, _,
      ⟨s'.pulse1, s'.pulse2, hp', hq', rfl⟩, ?_⟩
    obtain ⟨_, _, triangle, _, _, time, ticks, frame, switches, taps⟩ := h
    cases s'
    simp_all [frameEvent?]

/-- A tick has a result if it has one for both pulse voices and the sample player has bits to
play. -/
theorem exists_clock {s : Synthesizer} (bits : s.dmc.bitsRemaining ≠ 0) {pulse1 pulse2 : Pulse}
    (h1 : s.pulse1.tick s.frameEvent? (s.time + secondsPerTick) = .ok pulse1)
    (h2 : s.pulse2.tick s.frameEvent? (s.time + secondsPerTick) = .ok pulse2) :
    ∃ s', s.clock = .ok s' ∧ s'.pulse1 = pulse1 ∧ s'.pulse2 = pulse2 ∧
      s'.dmc.bitsRemaining ≠ 0 := by
  obtain ⟨noise, hn⟩ := s.noise.exists_tick s.frameEvent?
  obtain ⟨dmc, hd, bits'⟩ := DeltaModulation.exists_tick bits s.clocksDmc
  let s' : Synthesizer := { s with
    pulse1, pulse2
    triangle := s.triangle.tick s.frameEvent? (s.time + secondsPerTick)
    noise, dmc
    time := s.time + secondsPerTick
    ticks := s.ticks + 1
    frame := if s.ticks % 6 = 0 then s.frame.clock.2 else s.frame }
  have isTick : IsTick s s' := ⟨h1, h2, rfl, hn, hd, rfl, rfl, rfl, rfl, rfl⟩
  exact ⟨s', clock_eq_ok_iff.mpr isTick, rfl, rfl, bits'⟩

end Synthesizer

end Famicom.Audio
