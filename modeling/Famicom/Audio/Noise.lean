import Famicom.Arithmetic.Wrap
import Famicom.Audio.Envelope
import Famicom.Audio.LengthCounter
import Famicom.Audio.Sequencer

/-!
# The noise voice

The noise voice shows the low bit of a 15-bit feedback register, which shifts at one of sixteen
rates.

## Main definitions

* `Noise` — the voice
* `Noise.periods` — processor clocks between shifts
* `Noise.write` — a register write
* `Noise.quarterFrame`, `Noise.halfFrame`, `Noise.clock` — its three rates
-/

namespace Famicom.Audio

/-- The noise voice. -/
structure Noise where
  enabled : Bool := false
  /-- The length counter stands still and the envelope repeats. -/
  halt : Bool := false
  /-- The register feeds back from bit 6, not bit 1. -/
  mode : Bool := false
  seq : Sequencer
  env : Envelope := {}
  length : LengthCounter := {}
  /-- The level at the last clock. -/
  output : Float := 0.0

namespace Noise

/-- The registers of the noise voice. -/
inductive Register where
  | control
  | period
  | length
  deriving DecidableEq, Repr

/-- The processor clocks between two shifts. -/
def periods : Vector UInt16 16 :=
  #v[4, 8, 16, 32, 64, 96, 128, 160, 202, 254, 380, 508, 762, 1016, 2034, 4068]

/-- The reload value that makes a sequencer at half the processor's rate shift at the chosen period:
it shifts once in two more clocks than its reload value. -/
def reloadOf (index : Fin 16) : UInt16 :=
  let halved := periods[index] / 2
  if halved < 2 then 0 else halved - 2

/-- The period number in the lower four bits of a register byte. -/
def periodIndex (data : UInt8) : Fin 16 :=
  wrapTo data.toNat

/-- The voice at power-on. -/
def initial : Noise :=
  { seq := { sequence := 1, reload := reloadOf (periodIndex 0) } }

/-- Sets halt and envelope. -/
def setControl (v : Noise) (data : UInt8) : Noise :=
  { v with
    halt := data &&& 0x20 != 0
    env := { v.env with disable := data &&& 0x10 != 0, volume := data &&& 0x0F } }

/-- Sets the feedback and the period. -/
def setPeriod (v : Noise) (data : UInt8) : Noise :=
  { v with
    mode := data &&& 0x80 != 0
    seq := { v.seq with reload := reloadOf (periodIndex data) } }

/-- Starts a note. -/
def setLength (v : Noise) (data : UInt8) : Noise :=
  { v with
    length := if v.enabled then .ofByte data else v.length
    env := { v.env with start := true } }

/-- A register write. -/
def write (v : Noise) : Register → UInt8 → Noise
  | .control => v.setControl
  | .period => v.setPeriod
  | .length => v.setLength

/-- Switches the voice; a voice switched off ends its note. -/
def setEnabled (v : Noise) (enabled : Bool) : Noise :=
  { v with enabled, length := if enabled then v.length else ⟨0⟩ }

/-- The envelope moves every quarter frame. -/
def quarterFrame (v : Noise) : Noise :=
  { v with env := v.env.clock v.halt }

/-- The length counter moves every half frame. -/
def halfFrame (v : Noise) : Noise :=
  { v with length := v.length.clock v.enabled v.halt }

/-- How the register moves in the mode in force. -/
def rotation (v : Noise) : Rotation :=
  .feedback (if v.mode then 6 else 1)

/-- The voice can be heard. -/
def isAudible (v : Noise) : Bool :=
  v.enabled && v.seq.sequence &&& 0x0001 != 0 && 8 ≤ v.length.counter

/-- The level in force. -/
def level (v : Noise) : Float :=
  if v.isAudible then (v.env.output.toFloat - 1.0) / 16.0 else 0.0

/-- One clock at half the processor's rate: the register moves, then the level is taken. -/
def clock (v : Noise) : Except Fault Noise := do
  let seq ← v.seq.clock v.enabled v.rotation
  let v := { v with seq }
  pure { v with output := v.level }

end Noise

end Famicom.Audio
