import Famicom.Arithmetic.Checked
import Famicom.Arithmetic.Wrap

/-!
# The delta modulation voice

The DMC plays one-bit samples from the processor's address space. Each bit moves a 7-bit level two
steps up or down. The voice asks for one sample byte at a time; whoever owns the memory delivers it.

Delivery and playing are independent: a byte waits in a buffer of one until the eight bits before it
have been played, and the next byte is asked for as soon as the buffer is empty. Without a byte in
the buffer the voice keeps its level for eight bits and looks again.

## Main definitions

* `DeltaModulation` — the voice
* `DeltaModulation.write`, `DeltaModulation.setEnabled` — register writes
* `DeltaModulation.fetchAddress?` — the address of the byte it waits for
* `DeltaModulation.deliver` — that byte
* `DeltaModulation.clock` — one processor clock
-/

namespace Famicom.Audio

/-- The processor clocks between two sample bits. -/
def DeltaModulation.periods : Vector UInt16 16 :=
  #v[428, 380, 340, 320, 286, 254, 226, 214, 190, 160, 142, 128, 106, 84, 72, 54]

/-- The delta modulation voice. -/
structure DeltaModulation where
  enabled : Bool := false
  irqEnabled : Bool := false
  /-- The last sample ended and asked for an interrupt. -/
  irqFlag : Bool := false
  /-- A sample that ends starts again. -/
  looping : Bool := false
  timerPeriod : UInt16 := 428
  timerCounter : UInt16 := 428
  /-- The level, from 0 to 127. -/
  level : UInt8 := 0
  /-- Where the next sample starts. -/
  sampleAddress : UInt16 := 0xC000
  /-- How many bytes the next sample has. -/
  sampleLength : UInt16 := 1
  currentAddress : UInt16 := 0xC000
  bytesRemaining : UInt16 := 0
  /-- A byte delivered and not yet played. -/
  buffer : Option UInt8 := none
  /-- The byte being played, its next bit lowest. -/
  shifter : UInt8 := 0
  bitsRemaining : UInt8 := 8
  /-- No byte is being played. -/
  silence : Bool := true
  deriving DecidableEq, Repr

namespace DeltaModulation

/-- The registers of the voice, the switch apart. -/
inductive Register where
  | control
  | level
  | address
  | length
  deriving DecidableEq, Repr

/-- Sets interrupt, loop and period; an interrupt that is switched off is also withdrawn. -/
def setControl (d : DeltaModulation) (data : UInt8) : DeltaModulation :=
  let irqEnabled := data &&& 0x80 != 0
  let index : Fin 16 := wrapTo data.toNat
  { d with
    irqEnabled
    irqFlag := irqEnabled && d.irqFlag
    looping := data &&& 0x40 != 0
    timerPeriod := periods[index] }

/-- A register write. -/
def write (d : DeltaModulation) (register : Register) (data : UInt8) : DeltaModulation :=
  match register with
  | .control => d.setControl data
  | .level => { d with level := data &&& 0x7F }
  | .address => { d with sampleAddress := 0xC000 + data.toUInt16 * 64 }
  | .length => { d with sampleLength := data.toUInt16 * 16 + 1 }

/-- Goes back to the start of the sample. -/
def restart (d : DeltaModulation) : DeltaModulation :=
  { d with currentAddress := d.sampleAddress, bytesRemaining := d.sampleLength }

/-- Switches the voice and withdraws its interrupt. Switching off drops the rest of the sample;
switching on starts a sample unless one is playing. -/
def setEnabled (d : DeltaModulation) (enabled : Bool) : DeltaModulation :=
  let d := { d with enabled, irqFlag := false }
  if !enabled then { d with bytesRemaining := 0 }
  else if d.bytesRemaining = 0 then d.restart
  else d

/-- The voice waits for a sample byte. -/
def awaitsByte (d : DeltaModulation) : Bool :=
  d.enabled && d.buffer.isNone && 0 < d.bytesRemaining

/-- The address of the byte that the voice waits for. -/
def fetchAddress? (d : DeltaModulation) : Option UInt16 :=
  if d.awaitsByte then some d.currentAddress else none

/-- The address after one of a sample, which goes from the top of memory to its middle. -/
def nextAddress (address : UInt16) : UInt16 :=
  if address = 0xFFFF then 0x8000 else address + 1

/-- What happens when the last byte has come: the sample repeats, asks for an interrupt, or just
ends. -/
def finish (d : DeltaModulation) : DeltaModulation :=
  if d.looping then d.restart
  else if d.irqEnabled then { d with irqFlag := true }
  else d

/-- Takes a sample byte. -/
def deliver (d : DeltaModulation) (byte : UInt8) : DeltaModulation :=
  let d := { d with
    buffer := some byte
    currentAddress := nextAddress d.currentAddress
    bytesRemaining := if d.bytesRemaining = 0 then 0 else d.bytesRemaining - 1 }
  if d.bytesRemaining = 0 then d.finish else d

/-- The level after one bit: two up or two down, unless that leaves the scale. -/
def nextLevel (level : UInt8) (bit : Bool) : UInt8 :=
  if bit then
    if level ≤ 125 then level + 2 else level
  else
    if 2 ≤ level then level - 2 else level

/-- After eight bits the byte in the buffer, if there is one, is played next. -/
def takeBuffer (d : DeltaModulation) : DeltaModulation :=
  match d.buffer with
  | some byte => { d with bitsRemaining := 8, buffer := none, shifter := byte, silence := false }
  | none => { d with bitsRemaining := 8, silence := true }

/-- Plays one bit. -/
def playBit (d : DeltaModulation) : Except Fault DeltaModulation := do
  let level := if d.silence then d.level else nextLevel d.level (d.shifter &&& 0x01 != 0)
  let bitsRemaining ← Checked.pred8 d.bitsRemaining
  let d := { d with level, shifter := d.shifter >>> 1, bitsRemaining }
  pure (if bitsRemaining = 0 then d.takeBuffer else d)

/-- One processor clock: the timer counts down and plays a bit when it runs out. -/
def clock (d : DeltaModulation) : Except Fault DeltaModulation :=
  let timerCounter := if d.timerCounter = 0 then 0 else d.timerCounter - 1
  if timerCounter = 0 then
    { d with timerCounter := d.timerPeriod }.playBit
  else
    pure { d with timerCounter }

/-- The level as a number from 0 to 1. -/
def output (d : DeltaModulation) : Float :=
  d.level.toFloat / 127.0

end DeltaModulation

end Famicom.Audio
