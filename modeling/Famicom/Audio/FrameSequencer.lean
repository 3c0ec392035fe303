/-!
# The frame sequencer

Four times in a frame of 14916 clocks the sequencer moves the envelopes and the linear counter, and
twice it moves the length counters and sweeps.

## Main definitions

* `FrameEvent` — what a clock moves
* `FrameSequencer` — the clocks since the frame began
* `FrameSequencer.clock` — one clock
-/

namespace Famicom.Audio

/-- What one clock of the frame sequencer moves. -/
inductive FrameEvent where
  | idle
  /-- The units that move in quarter frames. -/
  | quarter
  /-- The units that move in quarter frames and those that move in half frames. -/
  | half
  deriving DecidableEq, Repr

namespace FrameEvent

/-- The event moves the units of a quarter frame. -/
def isQuarter (e : FrameEvent) : Bool :=
  e != .idle

/-- The event moves the units of a half frame. -/
def isHalf (e : FrameEvent) : Bool :=
  e == .half

end FrameEvent

/-- The clocks since the frame began. -/
structure FrameSequencer where
  position : Nat := 0
  deriving DecidableEq, Repr

namespace FrameSequencer

/-- The clocks in a frame. -/
def frameLength : Nat :=
  14916

/-- The event at a number of clocks into the frame. -/
def eventAt (position : Nat) : FrameEvent :=
  if position = 3729 || position = 11186 then .quarter
  else if position = 7457 || position = frameLength then .half
  else .idle

/-- One clock: the event it makes, and the sequencer after it. -/
def clock (f : FrameSequencer) : FrameEvent × FrameSequencer :=
  let position := f.position + 1
  (eventAt position, ⟨if position = frameLength then 0 else position⟩)

end FrameSequencer

end Famicom.Audio
