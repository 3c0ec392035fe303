import Famicom.Board.Wiring

/-!
# CNROM boards

A CNROM board switches its pattern memory in banks of 8 KiB.
-/

namespace Famicom.Board

/-- A CNROM board. -/
structure Cnrom where
  banks : BankCounts
  /-- The bank of pattern memory in force. -/
  chrBank : Nat := 0
  deriving DecidableEq, Repr

namespace Cnrom

/-- Back to power-on. -/
def reset (b : Cnrom) : Cnrom :=
  { b with chrBank := 0 }

/-- What a processor read reaches. -/
@[inline] def cpuRead (b : Cnrom) (address : UInt16) : Option ReadTarget :=
  if 0x8000 ≤ address then some (.prg (fixedPrg b.banks address)) else none

/-- A processor write to the upper half of memory chooses the bank of pattern memory. -/
def cpuWrite (b : Cnrom) (address : UInt16) (data : UInt8) : Cnrom :=
  if 0x8000 ≤ address then
    { b with chrBank := (data &&& 0x03).toNat % max b.banks.chr 1 }
  else
    b

/-- The offset in pattern memory that a read of the picture unit reaches. -/
@[inline] def chrOffset (b : Cnrom) (address : UInt16) : Nat :=
  b.chrBank * 0x2000 + within address 0x2000

/-- The board's state as a line of text. -/
def describe (b : Cnrom) : String :=
  s!"CNROM chr={b.chrBank}"

end Cnrom

end Famicom.Board
