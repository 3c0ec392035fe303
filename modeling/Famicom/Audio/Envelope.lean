/-!
# Volume envelopes

An envelope either holds a constant volume or lets it decay from 15 to 0, one step each time a
divider runs out.

## Main definitions

* `Envelope` — the divider and the decay level
* `Envelope.clock` — one quarter frame
-/

namespace Famicom.Audio

/-- A volume envelope. -/
structure Envelope where
  /-- The decay restarts at the next clock. -/
  start : Bool := false
  /-- The volume is constant. -/
  disable : Bool := false
  /-- The constant volume, and the period of the divider. -/
  volume : UInt8 := 0
  dividerCount : UInt8 := 0
  decayCount : UInt8 := 0
  /-- The volume in force. -/
  output : UInt8 := 0
  deriving DecidableEq, Repr

namespace Envelope

/-- Moves the divider, and the decay level when the divider runs out. -/
def advance (e : Envelope) (looping : Bool) : Envelope :=
  if e.start then
    { e with start := false, decayCount := 15, dividerCount := e.volume }
  else if e.dividerCount = 0 then
    { e with
      dividerCount := e.volume
      decayCount := if e.decayCount = 0 then (if looping then 15 else 0) else e.decayCount - 1 }
  else
    { e with dividerCount := e.dividerCount - 1 }

/-- One clock: the levels move, then the volume in force is read off them. -/
def clock (e : Envelope) (looping : Bool) : Envelope :=
  let e := e.advance looping
  { e with output := if e.disable then e.volume else e.decayCount }

end Envelope

end Famicom.Audio
