import Famicom.Cartridge.Basic

/-!
# Picture units

The picture unit fetches patterns and learns the layout of the name tables from the cartridge, and
tells it of every scanline. It does so as a program of accesses, which the console runs against the
cartridge.

## Main definitions

* `PatternProgram` — accesses to a cartridge
* `PatternProgram.run` — runs them
* `PictureUnit` — what the console asks of a picture unit
-/

namespace Famicom

/-- Accesses of the picture unit to a cartridge, ending in an `α`. -/
inductive PatternProgram (α : Type) where
  | done (a : α)
  | read (address : UInt16) (next : Option UInt8 → PatternProgram α)
  | write (address : UInt16) (data : UInt8) (next : Bool → PatternProgram α)
  | nametables (next : NametableLayout → PatternProgram α)
  | scanline (next : PatternProgram α)

/-- Runs accesses against a cartridge. -/
def PatternProgram.run {α : Type} : PatternProgram α → Cartridge → α × Cartridge
  | .done a, c => (a, c)
  | .read address next, c =>
    let (byte, c) := c.patternRead address
    (next byte).run c
  | .write address data next, c =>
    let (taken, c) := c.patternWrite address data
    (next taken).run c
  | .nametables next, c => (next c.nametables).run c
  | .scanline next, c => next.run c.scanline

/-- What the console asks of a picture unit whose state is a `π`. -/
class PictureUnit (π : Type) where
  /-- One dot. -/
  clock : π → PatternProgram π
  /-- A read of one of the eight registers. A peek leaves the unit as it is. -/
  readRegister : π → (register : UInt16) → (peek : Bool) → PatternProgram (UInt8 × π)
  /-- A write to one of the eight registers. -/
  writeRegister : π → (register : UInt16) → (data : UInt8) → PatternProgram π
  /-- A cartridge has been inserted. -/
  connect : π → Cartridge → π
  /-- The reset line. -/
  reset : π → π
  /-- Whether the unit asked for an interrupt since the last poll. -/
  pollNmi : π → Bool × π
  /-- A frame is complete. -/
  frameComplete : π → Bool
  /-- Forgets that a frame is complete. -/
  beginFrame : π → π

end Famicom
