import Famicom.Board.Wiring

/-!
# UxROM boards

A UxROM board switches the lower program window and keeps the last bank in the upper one.
-/

namespace Famicom.Board

/-- A UxROM board. -/
structure Uxrom where
  banks : BankCounts
  /-- The bank in the lower window. -/
  low : Nat := 0
  deriving DecidableEq, Repr

namespace Uxrom

/-- Back to power-on. -/
def reset (b : Uxrom) : Uxrom :=
  { b with low := 0 }

/-- The bank in the upper window. -/
def high (b : Uxrom) : Nat :=
  b.banks.prg - 1

/-- What a processor read reaches. -/
@[inline] def cpuRead (b : Uxrom) (address : UInt16) : Option ReadTarget :=
  if 0xC000 ≤ address then some (.prg (b.high * 0x4000 + within address 0x4000))
  else if 0x8000 ≤ address then some (.prg (b.low * 0x4000 + within address 0x4000))
  else none

/-- A processor write to the upper half of memory chooses the bank in the lower window. -/
def cpuWrite (b : Uxrom) (address : UInt16) (data : UInt8) : Uxrom :=
  if 0x8000 ≤ address then { b with low := (data &&& 0x0F).toNat % b.banks.prg } else b

/-- The board's state as a line of text. -/
def describe (b : Uxrom) : String :=
  s!"UxROM lo={b.low} hi={b.high}"

end Uxrom

end Famicom.Board
