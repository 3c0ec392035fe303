import Famicom.Board.Wiring
import Famicom.Text.Hex

/-!
# MMC2 boards

An MMC2 board switches one program window. Each of its two pattern windows has two banks and a latch
between them, which fetches of certain patterns flip.

A fetch is served from the bank that was in force before it, so a pattern that flips the latch is
itself still taken from the old bank.

## Main definitions

* `Mmc2.ChrWindow` — a pattern window with its latch
* `Mmc2` — the board
* `Mmc2.fetch` — a read of the picture unit, which may flip a latch
-/

namespace Famicom.Board

namespace Mmc2

/-- A window of 4 KiB of pattern memory with its two banks. -/
structure ChrWindow where
  /-- The bank in force after a fetch of pattern FD. -/
  fd : UInt8 := 0
  /-- The bank in force after a fetch of pattern FE. -/
  fe : UInt8 := 0
  /-- The latch is at FE. -/
  latch : Bool := false
  deriving DecidableEq, Repr

/-- The bank in force. -/
def ChrWindow.bank (w : ChrWindow) : UInt8 :=
  if w.latch then w.fe else w.fd

/-- The window after a fetch: pattern FD or FE flips the latch to its side. -/
def ChrWindow.afterFetch (w : ChrWindow) (address : UInt16) : ChrWindow :=
  match address &&& 0x0FF0 with
  | 0x0FD0 => { w with latch := false }
  | 0x0FE0 => { w with latch := true }
  | _ => w

end Mmc2

open Mmc2 in
/-- An MMC2 board. -/
structure Mmc2 where
  banks : BankCounts
  ram : Block := blankRam
  /-- The bank of 8 KiB in the first program window. -/
  prgBank : UInt8 := 0
  lower : ChrWindow := {}
  upper : ChrWindow := {}
  nametables : NametableLayout := .horizontal

namespace Mmc2

/-- Back to the first program bank and both latches at FD. RAM, pattern banks and name tables
stay. -/
def reset (b : Mmc2) : Mmc2 :=
  { b with
    prgBank := 0
    lower := { b.lower with latch := false }
    upper := { b.upper with latch := false } }

/-- The banks of 8 KiB of program memory. -/
def prgCount (b : Mmc2) : Nat :=
  b.banks.prg * 2

/-- The bank of 8 KiB that an address in the upper half of memory reaches: the switched one, then
the last three. -/
def prgBankAt (b : Mmc2) (address : UInt16) : Nat :=
  if address < 0xA000 then b.prgBank.toNat % b.prgCount
  else if address < 0xC000 then b.prgCount - 3
  else if address < 0xE000 then b.prgCount - 2
  else b.prgCount - 1

/-- What a processor read reaches. -/
@[inline] def cpuRead (b : Mmc2) (address : UInt16) : Option ReadTarget :=
  if 0x8000 ≤ address then some (.prg (b.prgBankAt address * 0x2000 + within address 0x2000))
  else if 0x6000 ≤ address then some (.ram (b.ram.read (within address 0x2000)))
  else none

/-- A write to a register. There is none below $A000. -/
def writeRegister (b : Mmc2) (address : UInt16) (data : UInt8) : Mmc2 :=
  if address < 0xA000 then b
  else if address < 0xB000 then { b with prgBank := data &&& 0x0F }
  else if address < 0xC000 then { b with lower := { b.lower with fd := data &&& 0x1F } }
  else if address < 0xD000 then { b with lower := { b.lower with fe := data &&& 0x1F } }
  else if address < 0xE000 then { b with upper := { b.upper with fd := data &&& 0x1F } }
  else if address < 0xF000 then { b with upper := { b.upper with fe := data &&& 0x1F } }
  else { b with nametables := .ofSwitch data }

/-- A processor write: RAM below the upper half of memory, registers there. -/
def cpuWrite (b : Mmc2) (address : UInt16) (data : UInt8) : Option WriteTarget × Mmc2 :=
  if 0x8000 ≤ address then (none, b.writeRegister address data)
  else if 0x6000 ≤ address then
    (some .ram, { b with ram := b.ram.write (within address 0x2000) data })
  else (none, b)

/-- The offset in pattern memory of an address in a window. -/
def chrOffset (b : Mmc2) (window : ChrWindow) (address : UInt16) : Nat :=
  window.bank.toNat % max (b.banks.chr * 2) 2 * 0x1000 + within address 0x1000

/-- A read of the picture unit: the bank in force answers, then the latch of the window may flip. -/
def fetch (b : Mmc2) (address : UInt16) : Nat × Mmc2 :=
  if address &&& 0x1000 == 0 then
    (b.chrOffset b.lower address, { b with lower := b.lower.afterFetch address })
  else
    (b.chrOffset b.upper address, { b with upper := b.upper.afterFetch address })

/-- The board's state as a line of text. -/
def describe (b : Mmc2) : String :=
  s!"MMC2 prg={b.prgBank} fd=[{Hex.byte b.lower.fd},{Hex.byte b.upper.fd}] "
    ++ s!"fe=[{Hex.byte b.lower.fe},{Hex.byte b.upper.fe}] "
    ++ s!"latch=[{b.lower.latch},{b.upper.latch}]"

end Mmc2

end Famicom.Board
