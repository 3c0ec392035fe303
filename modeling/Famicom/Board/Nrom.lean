import Famicom.Board.Wiring

/-!
# NROM boards

An NROM board has no registers. Its program memory can be written.
-/

namespace Famicom.Board

/-- An NROM board. -/
structure Nrom where
  banks : BankCounts
  deriving DecidableEq, Repr

namespace Nrom

/-- What a processor read reaches. -/
@[inline] def cpuRead (b : Nrom) (address : UInt16) : Option ReadTarget :=
  if 0x8000 ≤ address then some (.prg (fixedPrg b.banks address)) else none

/-- What a processor write reaches. -/
def cpuWrite (b : Nrom) (address : UInt16) : Option WriteTarget :=
  if 0x8000 ≤ address then some (.prg (fixedPrg b.banks address)) else none

/-- The board's state as a line of text. -/
def describe (b : Nrom) : String :=
  s!"NROM prg_banks={b.banks.prg}"

end Nrom

end Famicom.Board
