import Famicom.Queue.Bounded
import Famicom.Text.Hex

/-!
# The event log

The console keeps its latest events for whoever looks for a fault.

## Main definitions

* `Event` — what is logged
* `Event.message` — its text
* `EventLog` — the latest events
-/

namespace Famicom

/-- What is logged. -/
inductive Event where
  | spriteDmaStarted (page address : UInt8)
  | spriteDmaCompleted (page : UInt8)
  | reset
  | inserted (boardName : String) (number : UInt8)
  | frameGuardTripped (guard : UInt64)
  deriving DecidableEq, Repr

/-- The text of an event. -/
def Event.message : Event → String
  | .spriteDmaStarted page address =>
    s!"OAM DMA start page=${Hex.byte page} oam_addr=${Hex.byte address}"
  | .spriteDmaCompleted page => s!"OAM DMA complete page=${Hex.byte page}"
  | .reset => "System reset"
  | .inserted boardName number => s!"ROM inserted: {boardName} (mapper {number})"
  | .frameGuardTripped guard => s!"Frame guard tripped at {guard} system ticks"

/-- The latest events. -/
abbrev EventLog := BoundedQueue Event

/-- How many events are kept. -/
def eventLogCapacity : Nat :=
  512

end Famicom
