import Famicom.Audio.Channel
import Famicom.Audio.DeltaModulation
import Famicom.Audio.FrameSequencer
import Famicom.Audio.Mixer
import Famicom.Audio.Noise
import Famicom.Audio.Pulse
import Famicom.Audio.Triangle
import Famicom.Queue.Bounded

/-!
# The sound unit

The synthesizer joins the five voices, the frame sequencer, the mixer and a tap on the waveform of
each voice. It counts picture ticks: every third one is a processor clock, every sixth one a clock
of the frame sequencer and of the voices.

The unit never reads memory. It names the address of the sample byte that it waits for, and whoever
owns the memory delivers the byte. Listening takes samples of the levels and fills the taps, and
changes nothing that a later clock could notice.

Power-on and reset make new taps, which fails if these are to have more room than memory has
addresses.

## Main definitions

* `Synthesizer` — the unit
* `Register.ofAddress?` — the register at an address of the processor
* `Synthesizer.write`, `Synthesizer.status` — register access
* `Synthesizer.clock` — one picture tick
* `Synthesizer.sample` — the mixed level, which also feeds the taps
-/

namespace Famicom.Audio

/-- A register of the sound unit. -/
inductive Register where
  | pulse1 (register : Pulse.Register)
  | pulse2 (register : Pulse.Register)
  | triangle (register : Triangle.Register)
  | noise (register : Noise.Register)
  | dmc (register : DeltaModulation.Register)
  /-- The switches of all voices. -/
  | status
  deriving DecidableEq, Repr

/-- The register at an address, if one is there. -/
def Register.ofAddress? (address : UInt16) : Option Register :=
  match address with
  | 0x4000 => some (.pulse1 .control)
  | 0x4001 => some (.pulse1 .sweep)
  | 0x4002 => some (.pulse1 .timerLow)
  | 0x4003 => some (.pulse1 .timerHigh)
  | 0x4004 => some (.pulse2 .control)
  | 0x4005 => some (.pulse2 .sweep)
  | 0x4006 => some (.pulse2 .timerLow)
  | 0x4007 => some (.pulse2 .timerHigh)
  | 0x4008 => some (.triangle .linear)
  | 0x400A => some (.triangle .timerLow)
  | 0x400B => some (.triangle .timerHigh)
  | 0x400C => some (.noise .control)
  | 0x400E => some (.noise .period)
  | 0x400F => some (.noise .length)
  | 0x4010 => some (.dmc .control)
  | 0x4011 => some (.dmc .level)
  | 0x4012 => some (.dmc .address)
  | 0x4013 => some (.dmc .length)
  | 0x4015 => some .status
  | _ => none

/-- The sound unit. -/
structure Synthesizer where
  pulse1 : Pulse := { onesComplement := true }
  pulse2 : Pulse := { onesComplement := false }
  triangle : Triangle := {}
  noise : Noise := Noise.initial
  dmc : DeltaModulation := {}
  /-- Seconds since power-on or reset. -/
  time : Float := 0.0
  /-- Picture ticks since power-on or reset. -/
  ticks : UInt64 := 0
  frame : FrameSequencer := {}
  /-- Which voices the listener wants to hear. -/
  switches : PerChannel Bool := .uniform true
  /-- The samples of each voice that nobody has taken yet. -/
  taps : PerChannel (BoundedQueue Float32)

namespace Synthesizer

/-- How many samples a tap holds unless told otherwise. -/
def defaultTapCapacity : Nat :=
  1024

/-- The least capacity that is too large for a new tap: a sample takes four bytes, and memory has
2 ^ 63 addresses. -/
def tapCapacityLimit : Nat :=
  2305843009213693952

/-- A new tap. -/
def newTap (capacity : Nat) : Except Fault (BoundedQueue Float32) :=
  if capacity < tapCapacityLimit then .ok (.empty capacity) else .error .capacityOverflow

/-- The unit at power-on. -/
def initial (tapCapacity : Nat) : Except Fault Synthesizer := do
  pure { taps := .uniform (← newTap tapCapacity) }

/-- Back to power-on. The listener's switches and the room in the taps stay. -/
def reset (s : Synthesizer) : Except Fault Synthesizer := do
  pure { switches := s.switches, taps := ← s.taps.mapM fun tap => newTap tap.capacity }

/-! ### Registers -/

/-- Switches all voices. -/
def setStatus (s : Synthesizer) (data : UInt8) : Synthesizer :=
  { s with
    pulse1 := s.pulse1.setEnabled (data &&& 0x01 != 0)
    pulse2 := s.pulse2.setEnabled (data &&& 0x02 != 0)
    triangle := s.triangle.setEnabled (data &&& 0x04 != 0)
    noise := s.noise.setEnabled (data &&& 0x08 != 0)
    dmc := s.dmc.setEnabled (data &&& 0x10 != 0) }

/-- Writes one register. -/
def writeRegister (s : Synthesizer) (register : Register) (data : UInt8) : Synthesizer :=
  match register with
  | .pulse1 r => { s with pulse1 := s.pulse1.write r data }
  | .pulse2 r => { s with pulse2 := s.pulse2.write r data }
  | .triangle r => { s with triangle := s.triangle.write r data }
  | .noise r => { s with noise := s.noise.write r data }
  | .dmc r => { s with dmc := s.dmc.write r data }
  | .status => s.setStatus data

/-- A write of the processor. The frame sequencer has a single mode, so a write to its address
changes nothing, as does one to an address without a register. -/
def write (s : Synthesizer) (address : UInt16) (data : UInt8) : Synthesizer :=
  match Register.ofAddress? address with
  | some register => s.writeRegister register data
  | none => s

/-- One bit of a byte. -/
def flag (value : Bool) (bit : UInt8) : UInt8 :=
  if value then bit else 0

/-- The status register: the voices whose notes last in bits 0 to 3, a running sample in bit 4, its
interrupt in bit 7. -/
def status (s : Synthesizer) : UInt8 :=
  flag (0 < s.pulse1.length.counter) 0x01 ||| flag (0 < s.pulse2.length.counter) 0x02 |||
    flag (0 < s.triangle.length.counter) 0x04 ||| flag (0 < s.noise.length.counter) 0x08 |||
    flag (0 < s.dmc.bytesRemaining) 0x10 ||| flag s.dmc.irqFlag 0x80

/-- The unit asks for an interrupt. -/
def irqPending (s : Synthesizer) : Bool :=
  s.dmc.irqFlag

/-- The address of the sample byte that the unit waits for. -/
def fetchAddress? (s : Synthesizer) : Option UInt16 :=
  s.dmc.fetchAddress?

/-- Takes a sample byte. -/
def deliver (s : Synthesizer) (byte : UInt8) : Synthesizer :=
  { s with dmc := s.dmc.deliver byte }

/-! ### Time -/

/-- The seconds of one picture tick. -/
def secondsPerTick : Float :=
  1.0 / 3.0 / processorRate

/-- Moves the units of a quarter frame. -/
def quarterFrame (s : Synthesizer) : Synthesizer :=
  { s with
    pulse1 := s.pulse1.quarterFrame
    pulse2 := s.pulse2.quarterFrame
    triangle := s.triangle.quarterFrame
    noise := s.noise.quarterFrame }

/-- Moves the units of a half frame. -/
def halfFrame (s : Synthesizer) : Except Fault Synthesizer := do
  let pulse1 ← s.pulse1.halfFrame
  let pulse2 ← s.pulse2.halfFrame
  pure { s with
    pulse1
    pulse2
    triangle := s.triangle.halfFrame
    noise := s.noise.halfFrame }

/-- Moves what an event of the frame sequencer moves. -/
def handleFrameEvent (s : Synthesizer) : FrameEvent → Except Fault Synthesizer
  | .idle => .ok s
  | .quarter => .ok s.quarterFrame
  | .half => s.quarterFrame.halfFrame

/-- The event that the frame sequencer makes in the next picture tick. -/
def nextFrameEvent (s : Synthesizer) : FrameEvent :=
  if s.ticks % 6 = 0 then s.frame.clock.1 else .idle

/-- Clocks the voices. -/
def clockVoices (s : Synthesizer) : Except Fault Synthesizer := do
  let pulse1 ← s.pulse1.clock s.time
  let pulse2 ← s.pulse2.clock s.time
  let noise ← s.noise.clock
  pure { s with pulse1, pulse2, triangle := s.triangle.clock s.time, noise }

/-- A clock of the frame sequencer and of the voices. -/
def clockFrame (s : Synthesizer) : Except Fault Synthesizer := do
  let (event, frame) := s.frame.clock
  let s ← { s with frame }.handleFrameEvent event
  s.clockVoices

/-- A processor clock of the sample player. -/
def clockDmc (s : Synthesizer) : Except Fault Synthesizer := do
  let dmc ← s.dmc.clock
  pure { s with dmc }

/-- Finds change and mute of both sweeps for the periods in force. -/
def trackSweeps (s : Synthesizer) : Except Fault Synthesizer := do
  -- The unit is taken apart so that nothing else holds the parts that change.
  match s with
  | ⟨pulse1, pulse2, triangle, noise, dmc, time, ticks, frame, switches, taps⟩ =>
    let pulse1 ← pulse1.trackSweep
    let pulse2 ← pulse2.trackSweep
    pure ⟨pulse1, pulse2, triangle, noise, dmc, time, ticks, frame, switches, taps⟩

/-- One picture tick. -/
def clock (s : Synthesizer) : Except Fault Synthesizer := do
  -- The sample player comes before the voices, and the sweeps are found again in every tick.
  let s := { s with time := s.time + secondsPerTick }
  let s ← if s.ticks % 3 = 0 then s.clockDmc else pure s
  let s ← if s.ticks % 6 = 0 then s.clockFrame else pure s
  let s ← s.trackSweeps
  pure { s with ticks := s.ticks + 1 }

/-- A number of picture ticks. -/
def run : Nat → Synthesizer → Except Fault Synthesizer
  | 0, s => .ok s
  | n + 1, s => do run n (← s.clock)

/-! ### Listening -/

/-- The level of every voice. -/
def levels (s : Synthesizer) : PerChannel Float :=
  ⟨s.pulse1.output, s.pulse2.output, s.triangle.output, s.noise.output, s.dmc.output⟩

/-- The level of every voice that the listener wants to hear, and silence for the others. -/
def heardLevels (s : Synthesizer) : PerChannel Float :=
  s.switches.zipWith (fun heard level => if heard then level else 0.0) s.levels

/-- The mixed level. Every tap takes the level of its own voice. -/
def sample (s : Synthesizer) : Float32 × Synthesizer :=
  let heard := s.heardLevels
  ((Mixer.mix heard).toFloat32,
    { s with taps := s.taps.zipWith (fun tap level => tap.push level.toFloat32) heard })

/-- Switches a voice on or off for the listener. -/
def setHeard (s : Synthesizer) (channel : Channel) (heard : Bool) : Synthesizer :=
  { s with switches := s.switches.set channel heard }

/-- The listener wants to hear a voice. -/
def isHeard (s : Synthesizer) (channel : Channel) : Bool :=
  s.switches.get channel

/-- Changes the room in every tap. Taps that are in use grow only as samples come, so that any
capacity will do until the next reset. -/
def setTapCapacity (s : Synthesizer) (capacity : Nat) : Synthesizer :=
  { s with taps := s.taps.map (·.resize capacity) }

/-- Takes the samples of one voice, oldest first. -/
def drain (s : Synthesizer) (channel : Channel) : List Float32 × Synthesizer :=
  let tap := s.taps.get channel
  (tap.toList, { s with taps := s.taps.set channel tap.clear })

end Synthesizer

end Famicom.Audio
