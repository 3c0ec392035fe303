import Famicom.Arithmetic.Checked

/-!
# Pattern sequencers

A sequencer rotates a bit pattern each time its timer runs out and shows the low bit of the pattern.
The pulse voices turn a duty pattern of eight bits; the noise voice shifts a feedback register of
fifteen.

The timer restarts from one above its reload value and the pattern moves as it passes below zero, so
a running sequencer moves its pattern once in two more clocks than its reload value says.

## Main definitions

* `Rotation` — how the pattern moves
* `Sequencer` — pattern, timer and the bit shown
* `Sequencer.clock` — one tick of the timer
-/

namespace Famicom.Audio

/-- How a pattern moves when the timer runs out. -/
inductive Rotation where
  /-- The low eight bits turn right by one place. -/
  | duty
  /-- The low fifteen bits shift right, and bit 14 takes the sum of bit 0 and bit `tap`. -/
  | feedback (tap : UInt8)
  deriving DecidableEq, Repr

/-- The low eight bits turned right by one place; all others are lost. -/
@[inline] def Rotation.turn (s : UInt16) : UInt16 :=
  let low : UInt16 := s &&& 0x0001
  let high : UInt16 := s &&& 0x00FE
  (low <<< 7) ||| (high >>> 1)

/-- The low fifteen bits shifted right by one place, with a new bit 14. -/
@[inline] def Rotation.shiftIn (s bit : UInt16) : UInt16 :=
  let rest : UInt16 := (s >>> 1) &&& 0x3FFF
  rest ||| (bit <<< 14)

/-- The pattern after one move. A tap at bit 16 or above names no bit. -/
@[inline] def Rotation.apply : Rotation → UInt16 → Except Fault UInt16
  | .duty, s => .ok (turn s)
  | .feedback tap, s => do
    let tapped ← Checked.shiftRight16 s tap
    pure (shiftIn s ((s ^^^ tapped) &&& 0x0001))

/-- A pattern and the timer that moves it. -/
structure Sequencer where
  /-- The pattern. -/
  sequence : UInt16 := 0
  /-- Clocks left before the pattern moves, less one. -/
  timer : UInt16 := 0
  /-- What the timer restarts from, less one. -/
  reload : UInt16 := 0
  /-- The bit shown. -/
  output : UInt8 := 0
  deriving DecidableEq, Repr

namespace Sequencer

/-- One clock: a stopped sequencer stands still, a running one moves its pattern when the timer
passes below zero. -/
@[inline] def clock (q : Sequencer) (enable : Bool) (rotation : Rotation) :
    Except Fault Sequencer :=
  if enable then
    if q.timer = 0 then do
      let sequence ← rotation.apply q.sequence
      pure { q with sequence, timer := q.reload + 1, output := (sequence &&& 0x0001).toUInt8 }
    else
      pure { q with timer := q.timer - 1 }
  else
    pure q

/-- A number of clocks in a row. -/
def run (enable : Bool) (rotation : Rotation) : Nat → Sequencer → Except Fault Sequencer
  | 0, q => .ok q
  | n + 1, q => do run enable rotation n (← q.clock enable rotation)

theorem clock_disabled (q : Sequencer) (rotation : Rotation) : q.clock false rotation = .ok q :=
  rfl

end Sequencer

end Famicom.Audio
