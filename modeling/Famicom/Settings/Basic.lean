import Famicom.Audio.Channel
import Famicom.Audio.Synthesizer

/-!
# Settings

What the owner of a console chooses.

## Main definitions

* `Settings` — the choices, with their defaults
-/

namespace Famicom

/-- What the owner of a console chooses. -/
structure Settings where
  /-- Audio samples in a second. -/
  sampleRate : UInt32 := 44100
  /-- Which voices are heard. -/
  channels : Audio.PerChannel Bool := .uniform true
  /-- How many samples of each voice are kept for display. -/
  waveformCapacity : UInt64 := Audio.Synthesizer.defaultTapCapacity.toUInt64
  /-- Where saves are kept; beside the image if nowhere else. -/
  saveDirectory : Option String := none
  /-- After how many ticks a frame is given up. -/
  frameGuardTicks : UInt64 := 1000000
  /-- MMC1 boards have the gate that drops writes of adjacent instructions. -/
  mmc1SerialGate : Bool := false
  deriving DecidableEq, Repr

namespace Settings

/-- All settings have their defaults. -/
def isDefault (s : Settings) : Bool :=
  s = {}

end Settings

end Famicom
