import Famicom.Audio.Envelope
import Famicom.Audio.LengthCounter
import Famicom.Audio.Oscillator
import Famicom.Audio.Sequencer
import Famicom.Audio.Sweep

/-!
# Pulse voices

A pulse voice plays a rectangular wave of four possible duties. Its period is moved by a sweep, its
volume by an envelope, and a length counter ends the note.

## Main definitions

* `Duty` — the share of a period that is high
* `Pulse` — the voice
* `Pulse.write` — a register write
* `Pulse.quarterFrame`, `Pulse.halfFrame`, `Pulse.clock` — its three rates
-/

namespace Famicom.Audio

/-- The share of a period that a pulse is high. -/
inductive Duty where
  | eighth
  | quarter
  | half
  | threeQuarters
  deriving DecidableEq, Repr

namespace Duty

/-- The duty in the upper two bits of a register byte. -/
def ofByte (data : UInt8) : Duty :=
  match data >>> 6 with
  | 0 => .eighth
  | 1 => .quarter
  | 2 => .half
  | _ => .threeQuarters

/-- The bits of one period. -/
def pattern : Duty → UInt16
  | .eighth => 0b00000001
  | .quarter => 0b00000011
  | .half => 0b00001111
  | .threeQuarters => 0b11111100

/-- The share as a number. -/
def cycle : Duty → Float
  | .eighth => 0.125
  | .quarter => 0.25
  | .half => 0.5
  | .threeQuarters => 0.75

end Duty

/-- A pulse voice. -/
structure Pulse where
  enabled : Bool := false
  /-- The length counter stands still and the envelope repeats. -/
  halt : Bool := false
  /-- How the sweep of this voice negates. -/
  onesComplement : Bool
  duty : Duty := .eighth
  seq : Sequencer := {}
  env : Envelope := {}
  length : LengthCounter := {}
  sweep : Sweep := {}
  /-- The level at the last clock. -/
  output : Float := 0.0

namespace Pulse

/-- The registers of a pulse voice. -/
inductive Register where
  | control
  | sweep
  | timerLow
  | timerHigh
  deriving DecidableEq, Repr

/-- Sets duty, halt and envelope, and restarts the pattern. -/
def setControl (p : Pulse) (data : UInt8) : Pulse :=
  let duty := Duty.ofByte data
  { p with
    duty
    seq := { p.seq with sequence := duty.pattern }
    halt := data &&& 0x20 != 0
    env := { p.env with disable := data &&& 0x10 != 0, volume := data &&& 0x0F } }

/-- Sets the sweep, and restarts its divider at the next clock. -/
def setSweep (p : Pulse) (data : UInt8) : Pulse :=
  { p with
    sweep := { p.sweep with
      enabled := data &&& 0x80 != 0
      period := (data &&& 0x70) >>> 4
      down := data &&& 0x08 != 0
      shift := data &&& 0x07
      reload := true } }

/-- Sets the lower eight bits of the period. -/
def setTimerLow (p : Pulse) (data : UInt8) : Pulse :=
  { p with seq := { p.seq with reload := (p.seq.reload &&& 0xFF00) ||| data.toUInt16 } }

/-- Sets the upper three bits of the period and starts a note. -/
def setTimerHigh (p : Pulse) (data : UInt8) : Pulse :=
  let reload := ((data &&& 0x07).toUInt16 <<< 8) ||| (p.seq.reload &&& 0x00FF)
  { p with
    seq := { p.seq with reload, timer := reload, sequence := p.duty.pattern }
    length := if p.enabled then .ofByte data else p.length
    env := { p.env with start := true } }

/-- A register write. -/
def write (p : Pulse) : Register → UInt8 → Pulse
  | .control => p.setControl
  | .sweep => p.setSweep
  | .timerLow => p.setTimerLow
  | .timerHigh => p.setTimerHigh

/-- Switches the voice; a voice switched off ends its note. -/
def setEnabled (p : Pulse) (enabled : Bool) : Pulse :=
  { p with enabled, length := if enabled then p.length else ⟨0⟩ }

/-- The envelope moves every quarter frame. -/
def quarterFrame (p : Pulse) : Pulse :=
  { p with env := p.env.clock p.halt }

/-- Length counter and sweep move every half frame. -/
def halfFrame (p : Pulse) : Except Fault Pulse := do
  let (updated, sweep) ← p.sweep.clock p.seq.reload p.onesComplement
  pure { p with
    length := p.length.clock p.enabled p.halt
    sweep
    seq := { p.seq with reload := updated.getD p.seq.reload } }

/-- Finds the sweep's change and mute for the period in force. -/
@[inline] def trackSweep (p : Pulse) : Except Fault Pulse := do
  -- The voice is taken apart so that nothing else holds the sweep while it changes.
  match p with
  | ⟨enabled, halt, onesComplement, duty, seq, env, length, sweep, output⟩ =>
    let sweep ← sweep.track seq.reload onesComplement
    pure ⟨enabled, halt, onesComplement, duty, seq, env, length, sweep, output⟩

/-- The voice can be heard. -/
def isAudible (p : Pulse) : Bool :=
  p.enabled && 0 < p.length.counter && 8 ≤ p.seq.timer && !p.sweep.mute && 2 < p.env.output

/-- The level at a time. -/
def level (p : Pulse) (t : Float) : Float :=
  if p.isAudible then
    let frequency := processorRate / (16.0 * (p.seq.reload.toFloat + 1.0))
    let amplitude := (p.env.output.toFloat - 1.0) / 16.0
    Oscillator.pulse frequency p.duty.cycle amplitude t
  else
    0.0

/-- One clock at half the processor's rate: the pattern moves, then the level is taken. -/
def clock (p : Pulse) (t : Float) : Except Fault Pulse := do
  let seq ← p.seq.clock p.enabled .duty
  let p := { p with seq }
  pure { p with output := p.level t }

end Pulse

end Famicom.Audio
