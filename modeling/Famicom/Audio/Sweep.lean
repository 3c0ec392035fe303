import Famicom.Arithmetic.Checked

/-!
# Frequency sweeps

A sweep unit moves the period of a pulse voice up or down by a fraction of itself each time its
divider runs out, and mutes the voice whose period is, or would become, out of range.

Change and mute are found ahead of their use: `track` runs in every picture tick, `clock` only in
half frames. So a clock works with what was last tracked, even if a register was written in between.

## Main definitions

* `Sweep` — settings, divider, and the change and mute found for the current period
* `Sweep.target?` — the period that the change leads to
* `Sweep.track` — finds change and mute again
* `Sweep.clock` — one half frame, which may give the voice a new period
-/

namespace Famicom.Audio

/-- A sweep unit. -/
structure Sweep where
  enabled : Bool := false
  /-- The period is made shorter. -/
  down : Bool := false
  /-- The divider restarts at the next clock. -/
  reload : Bool := false
  /-- The change is the period shifted right by this many places. -/
  shift : UInt8 := 0
  timer : UInt8 := 0
  /-- The period of the divider. -/
  period : UInt8 := 0
  /-- How far the next update moves the voice's period. -/
  change : UInt16 := 0
  /-- The voice is silent. -/
  mute : Bool := false
  deriving DecidableEq, Repr

namespace Sweep

/-- The longest period that a voice may have. -/
def longestPeriod : UInt16 :=
  0x7FF

/-- The shortest period that a voice may have. -/
def shortestPeriod : UInt16 :=
  8

/-- The period that an update leads to. Going down stops at zero, and takes one more off in ones'
complement. -/
@[inline] def target? (s : Sweep) (period : UInt16) (onesComplement : Bool) :
    Except Fault UInt16 :=
  if s.down then do
    let fall ← Checked.add16 s.change (if onesComplement then 1 else 0)
    pure (if period < fall then 0 else period - fall)
  else
    Checked.add16 period s.change

/-- The period is too short, or an update would make it too long. -/
@[inline] def isOutOfRange (s : Sweep) (period : UInt16) (onesComplement : Bool) :
    Except Fault Bool :=
  if period < shortestPeriod then
    pure true
  else do
    pure (longestPeriod < (← s.target? period onesComplement))

/-- Finds change and mute for the voice's period, whether or not the unit is enabled. -/
@[inline] def track (s : Sweep) (period : UInt16) (onesComplement : Bool) :
    Except Fault Sweep := do
  let change ← Checked.shiftRight16 period s.shift
  let mute ← { s with change }.isOutOfRange period onesComplement
  pure { s with change, mute }

/-- The next clock updates the period. -/
def isDue (s : Sweep) : Bool :=
  s.timer = 0 && s.enabled && 0 < s.shift && !s.mute

/-- Moves the divider. -/
def countDown (s : Sweep) : Sweep :=
  if s.timer = 0 || s.reload then
    { s with timer := s.period, reload := false }
  else
    { s with timer := s.timer - 1 }

/-- The new period of a clock, if it makes one. -/
def update? (s : Sweep) (period : UInt16) (onesComplement : Bool) :
    Except Fault (Option UInt16) :=
  -- The change is the one found last, whatever was written to the unit since.
  if s.isDue then
    return some (← s.target? period onesComplement)
  else
    return none

/-- One clock: an update if one is due, then the divider, then change and mute for the period that
the voice has from now on. -/
def clock (s : Sweep) (period : UInt16) (onesComplement : Bool) :
    Except Fault (Option UInt16 × Sweep) := do
  let updated ← s.update? period onesComplement
  let s ← s.countDown.track (updated.getD period) onesComplement
  pure (updated, s)

/-- Clocks in a row, each period that is returned becoming the current one. The first result is the
last clock's. -/
def follow (onesComplement : Bool) :
    Nat → UInt16 → Option UInt16 → Sweep → Except Fault (Option UInt16 × Sweep)
  | 0, _, last, s => .ok (last, s)
  | n + 1, period, _, s => do
    let (updated, s) ← s.clock period onesComplement
    follow onesComplement n (updated.getD period) updated s

end Sweep

end Famicom.Audio
