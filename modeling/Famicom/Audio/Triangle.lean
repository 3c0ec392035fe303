import Famicom.Audio.LengthCounter
import Famicom.Audio.Oscillator

/-!
# The triangle voice

The triangle voice has no volume. It sounds while both its linear counter, which runs in quarter
frames, and its length counter have not run out.

## Main definitions

* `Triangle` — the voice
* `Triangle.write` — a register write
* `Triangle.quarterFrame`, `Triangle.halfFrame`, `Triangle.clock` — its three rates
-/

namespace Famicom.Audio

/-- The triangle voice. -/
structure Triangle where
  enabled : Bool := false
  /-- The length counter stands still and the linear counter keeps reloading. -/
  control : Bool := false
  linearReload : UInt8 := 0
  linearCounter : UInt8 := 0
  /-- The linear counter reloads at the next quarter frame. -/
  linearReloadFlag : Bool := false
  reload : UInt16 := 0
  length : LengthCounter := {}
  /-- The last level that was heard. -/
  lastOutput : Float := 0.0
  /-- The level at the last clock. -/
  output : Float := 0.0

namespace Triangle

/-- The registers of the triangle voice. -/
inductive Register where
  | linear
  | timerLow
  | timerHigh
  deriving DecidableEq, Repr

/-- Sets the control flag and the value that the linear counter reloads. -/
def setLinear (v : Triangle) (data : UInt8) : Triangle :=
  { v with control := data &&& 0x80 != 0, linearReload := data &&& 0x7F }

/-- Sets the lower eight bits of the period. -/
def setTimerLow (v : Triangle) (data : UInt8) : Triangle :=
  { v with reload := (v.reload &&& 0xFF00) ||| data.toUInt16 }

/-- Sets the upper three bits of the period and starts a note. -/
def setTimerHigh (v : Triangle) (data : UInt8) : Triangle :=
  { v with
    reload := ((data &&& 0x07).toUInt16 <<< 8) ||| (v.reload &&& 0x00FF)
    length := if v.enabled then .ofByte data else v.length
    linearReloadFlag := true }

/-- A register write. -/
def write (v : Triangle) : Register → UInt8 → Triangle
  | .linear => v.setLinear
  | .timerLow => v.setTimerLow
  | .timerHigh => v.setTimerHigh

/-- Switches the voice; a voice switched off ends its note. -/
def setEnabled (v : Triangle) (enabled : Bool) : Triangle :=
  { v with enabled, length := if enabled then v.length else ⟨0⟩ }

/-- The linear counter reloads or counts down every quarter frame. The reload flag stays while the
control flag is set. -/
def quarterFrame (v : Triangle) : Triangle :=
  { v with
    linearCounter :=
      if v.linearReloadFlag then v.linearReload
      else if v.linearCounter = 0 then 0 else v.linearCounter - 1
    linearReloadFlag := v.control && v.linearReloadFlag }

/-- The length counter moves every half frame. -/
def halfFrame (v : Triangle) : Triangle :=
  { v with length := v.length.clock v.enabled v.control }

/-- The voice can be heard. -/
def isAudible (v : Triangle) : Bool :=
  v.enabled && 0 < v.linearCounter && 8 ≤ v.length.counter

/-- The frequency of the period in force. -/
def frequency (v : Triangle) : Float :=
  processorRate / (32.0 * (v.reload.toFloat + 1.0))

/-- One clock: the level at a time, or the last one heard if that is off the scale. -/
def clock (v : Triangle) (t : Float) : Triangle :=
  if v.isAudible then
    let output := Oscillator.guard (Oscillator.triangle v.frequency t) v.lastOutput
    { v with output, lastOutput := output }
  else
    { v with output := 0.0 }

end Triangle

end Famicom.Audio
