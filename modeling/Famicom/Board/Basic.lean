import Famicom.Board.Cnrom
import Famicom.Board.Mmc1
import Famicom.Board.Mmc2
import Famicom.Board.Mmc3
import Famicom.Board.Nrom
import Famicom.Board.Uxrom

/-!
# Cartridge boards

A board stands between the console and the memory on a cartridge: it maps addresses, keeps bank
registers, lays out the name tables and may raise interrupts. Offsets are exact numbers here;
`Famicom.Board.WordSize` holds them against the size of a word.

## Main definitions

* `Board` — a board of one of the six supported kinds
* `Board.ofNumber?` — the board with a mapper number
* `Board.cpuRead`, `Board.cpuWrite`, `Board.chrRead`, `Board.chrWrite` — where addresses lead
* `Board.describe` — the state as a line of text
-/

namespace Famicom

open Board in
/-- A cartridge board. -/
inductive Board where
  | nrom (b : Nrom)
  | mmc1 (b : Mmc1)
  | uxrom (b : Uxrom)
  | cnrom (b : Cnrom)
  | mmc3 (b : Mmc3)
  | mmc2 (b : Mmc2)

namespace Board

/-- The name of the boards with a mapper number. -/
def nameOf (number : UInt8) : String :=
  match number with
  | 0 => "NROM"
  | 1 => "MMC1"
  | 2 => "UxROM"
  | 3 => "CNROM"
  | 4 => "MMC3"
  | 9 => "MMC2"
  | _ => "Unsupported"

/-- The board with a mapper number at power-on, if it is supported. -/
def ofNumber? (number : UInt8) (banks : BankCounts) : Option Board :=
  match number with
  | 0 => some (.nrom { banks })
  | 1 => some (.mmc1 (.initial banks))
  | 2 => some (.uxrom { banks })
  | 3 => some (.cnrom { banks })
  | 4 => some (.mmc3 (.initial banks))
  | 9 => some (.mmc2 { banks })
  | _ => none

/-- The mapper number. -/
def number : Board → UInt8
  | .nrom _ => 0
  | .mmc1 _ => 1
  | .uxrom _ => 2
  | .cnrom _ => 3
  | .mmc3 _ => 4
  | .mmc2 _ => 9

/-- The name. -/
def name (b : Board) : String :=
  nameOf b.number

/-- The memory on the board. -/
def banks : Board → BankCounts
  | .nrom b => b.banks
  | .mmc1 b => b.banks
  | .uxrom b => b.banks
  | .cnrom b => b.banks
  | .mmc3 b => b.banks
  | .mmc2 b => b.banks

/-- What a processor read reaches, if the board answers it. -/
@[inline] def cpuRead (b : Board) (address : UInt16) : Option ReadTarget :=
  match b with
  | .nrom b => b.cpuRead address
  | .mmc1 b => b.cpuRead address
  | .uxrom b => b.cpuRead address
  | .cnrom b => b.cpuRead address
  | .mmc3 b => b.cpuRead address
  | .mmc2 b => b.cpuRead address

/-- What a processor write reaches, if the board takes it as memory. Writes to registers leave the
address free for other devices. The number of the instruction matters to the MMC1 gate alone. -/
def cpuWrite (b : Board) (address : UInt16) (data : UInt8) (step : UInt64) :
    Option WriteTarget × Board :=
  match b with
  | .nrom b => (b.cpuWrite address, .nrom b)
  | .mmc1 b =>
    let (target, b) := b.cpuWrite address data step
    (target, .mmc1 b)
  | .uxrom b => (none, .uxrom (b.cpuWrite address data))
  | .cnrom b => (none, .cnrom (b.cpuWrite address data))
  | .mmc3 b =>
    let (target, b) := b.cpuWrite address data
    (target, .mmc3 b)
  | .mmc2 b =>
    let (target, b) := b.cpuWrite address data
    (target, .mmc2 b)

/-- The first address that is not in pattern memory. -/
def chrEnd : UInt16 :=
  0x2000

/-- The offset in pattern memory that a read of the picture unit reaches, if it is one of
patterns. -/
def chrRead (b : Board) (address : UInt16) : Option Nat × Board :=
  if chrEnd ≤ address then
    (none, b)
  else
    match b with
    | .nrom b => (some address.toNat, .nrom b)
    | .mmc1 b => (some (b.chrOffset address), .mmc1 b)
    | .uxrom b => (some address.toNat, .uxrom b)
    | .cnrom b => (some (b.chrOffset address), .cnrom b)
    | .mmc3 b => (some (b.chrOffset address), .mmc3 b)
    | .mmc2 b =>
      let (offset, b) := b.fetch address
      (some offset, .mmc2 b)

/-- The offset in pattern memory that a write of the picture unit reaches. Only pattern RAM can be
written. -/
def chrWrite (b : Board) (address : UInt16) : Option Nat :=
  if chrEnd ≤ address || b.banks.chr != 0 then
    none
  else
    match b with
    | .mmc3 b => some (b.chrOffset address)
    | .mmc1 b => some (b.chrOffset address)
    | _ => some address.toNat

/-- The layout of the name tables. -/
def nametables : Board → NametableLayout
  | .mmc1 b => b.nametables
  | .mmc3 b => b.nametables
  | .mmc2 b => b.nametables
  | _ => .hardware

/-- The reset line of the console. -/
def reset : Board → Board
  | .nrom b => .nrom b
  | .mmc1 b => .mmc1 b.reset
  | .uxrom b => .uxrom b.reset
  | .cnrom b => .cnrom b.reset
  | .mmc3 b => .mmc3 b.reset
  | .mmc2 b => .mmc2 b.reset

/-- The board asks for an interrupt. -/
def irqPending : Board → Bool
  | .mmc3 b => b.lines.active
  | _ => false

/-- Withdraws the interrupt. -/
def clearIrq : Board → Board
  | .mmc3 b => .mmc3 b.clearIrq
  | b => b

/-- One scanline of the picture. -/
def scanline : Board → Board
  | .mmc3 b => .mmc3 b.scanline
  | b => b

/-- The RAM, on a board that has any. -/
def ram? : Board → Option Block
  | .mmc1 b => some b.ram
  | .mmc3 b => some b.ram
  | .mmc2 b => some b.ram
  | _ => none

/-- Puts an image at the start of the RAM. A board without RAM has no use for it. -/
def loadRam (b : Board) (image : ByteArray) : Option Board :=
  match b with
  | .mmc1 b => some (.mmc1 { b with ram := b.ram.load image })
  | .mmc3 b => some (.mmc3 { b with ram := b.ram.load image })
  | .mmc2 b => some (.mmc2 { b with ram := b.ram.load image })
  | _ => none

/-- Sets the gate of an MMC1 board. -/
def setGate (b : Board) (enabled : Bool) : Board :=
  match b with
  | .mmc1 b => .mmc1 { b with serialGate := enabled }
  | b => b

/-- The board's state as a line of text. -/
def describe : Board → String
  | .nrom b => b.describe
  | .mmc1 b => b.describe
  | .uxrom b => b.describe
  | .cnrom b => b.describe
  | .mmc3 b => b.describe
  | .mmc2 b => b.describe

end Board

end Famicom
