import Famicom.Board.Wiring
import Famicom.Text.Hex

/-!
# MMC1 boards

An MMC1 board is programmed through a shift register: five writes bring one value, lowest bit first,
and the address of the fifth chooses the register. The windows that the registers stand for are
found once, when a register changes. The shift register may have a gate that drops the second of two
writes made by adjacent instructions.

## Main definitions

* `Mmc1.ShiftRegister` — the bits of a value that is not yet complete
* `Mmc1.Registers`, `Mmc1.Windows` — what was programmed, and what it means
* `Mmc1` — the board
* `Mmc1.writeBit` — one write to the shift register
-/

namespace Famicom.Board

namespace Mmc1

/-- The shift register: the bits so far, the newest highest, and how many there are. -/
structure ShiftRegister where
  bits : UInt8 := 0
  count : Nat := 0
  deriving DecidableEq, Repr

/-- Takes the lowest bit of a byte. The fifth bit completes a value and empties the register. -/
def ShiftRegister.push (p : ShiftRegister) (data : UInt8) : Option UInt8 × ShiftRegister :=
  let bits := (p.bits >>> 1) ||| ((data &&& 0x01) <<< 4)
  if p.count + 1 < 5 then (none, ⟨bits, p.count + 1⟩) else (some (bits &&& 0x1F), {})

/-- The registers. -/
structure Registers where
  control : UInt8 := 0x1C
  chr0 : UInt8 := 0
  chr1 : UInt8 := 0
  prg : UInt8 := 0
  deriving DecidableEq, Repr

/-- Pattern memory is switched in two windows of 4 KiB, not one of 8 KiB. -/
def Registers.splitsChr (r : Registers) : Bool :=
  r.control &&& 0x10 != 0

/-- Program memory is switched in one window of 32 KiB, not two of 16 KiB. -/
def Registers.joinsPrg (r : Registers) : Bool :=
  r.control &&& 0x08 == 0

/-- Puts a value into the register that an address chooses. -/
def Registers.put (r : Registers) (address : UInt16) (value : UInt8) : Registers :=
  if address < 0xA000 then { r with control := value }
  else if address < 0xC000 then { r with chr0 := value }
  else if address < 0xE000 then { r with chr1 := value }
  else { r with prg := value &&& 0x0F }

/-- The bank numbers in the windows, before they wrap around the memory there is. Those of windows
that are not in use may be out of date. -/
structure Windows where
  chrLow : Nat := 0
  chrHigh : Nat := 0
  chrWhole : Nat := 0
  prgLow : Nat := 0
  prgHigh : Nat := 0
  prgWhole : Nat := 0
  deriving DecidableEq, Repr

/-- The windows after a change of registers. Boards of more than 16 banks choose one of their halves
by bit 4 of the first pattern register. -/
def Windows.update (w : Windows) (banks : BankCounts) (r : Registers) : Windows :=
  -- Windows that are not in use keep their numbers and are found again before they come into use.
  let w :=
    if r.splitsChr then
      { w with chrLow := (r.chr0 &&& 0x1F).toNat, chrHigh := (r.chr1 &&& 0x1F).toNat }
    else
      { w with chrWhole := ((r.chr0 &&& 0x1E) >>> 1).toNat }
  let outer := if 16 < banks.prg then (r.chr0 &&& 0x10).toNat else 0
  let last := if 16 < banks.prg then outer ||| 0x0F else banks.prg - 1
  let inner := (r.prg &&& 0x0F).toNat
  match (r.control >>> 2) &&& 0x03 with
  | 3 => { w with prgLow := outer ||| inner, prgHigh := last }
  | 2 => { w with prgLow := outer, prgHigh := outer ||| inner }
  | _ => { w with prgWhole := (outer >>> 1) ||| ((r.prg &&& 0x0E) >>> 1).toNat }

/-- The layout that a value of the control register chooses. -/
def nametablesOf (control : UInt8) : NametableLayout :=
  match control &&& 0x03 with
  | 0 => .oneScreenLower
  | 1 => .oneScreenUpper
  | 2 => .vertical
  | _ => .horizontal

end Mmc1

open Mmc1 in
/-- An MMC1 board. -/
structure Mmc1 where
  banks : BankCounts
  ram : Block := blankRam
  shift : ShiftRegister := {}
  registers : Registers := {}
  windows : Windows := {}
  nametables : NametableLayout := .horizontal
  /-- The gate is in use. -/
  serialGate : Bool := false
  /-- The instruction that made the last write through the gate. -/
  lastStep : UInt64 := 0

namespace Mmc1

/-- Finds the windows again. -/
def updateWindows (b : Mmc1) : Mmc1 :=
  { b with windows := b.windows.update b.banks b.registers }

/-- Back to power-on. RAM, gate, and windows that are not in use stay. -/
def reset (b : Mmc1) : Mmc1 :=
  updateWindows { b with shift := {}, registers := {}, nametables := .horizontal, lastStep := 0 }

/-- The board at power-on. -/
def initial (banks : BankCounts) : Mmc1 :=
  updateWindows { banks }

/-- The offset in program ROM of an address in the upper half of memory. -/
@[inline] def prgOffset (b : Mmc1) (address : UInt16) : Nat :=
  if b.registers.joinsPrg then
    b.windows.prgWhole % max (b.banks.prg / 2) 1 * 0x8000 + within address 0x8000
  else if address < 0xC000 then
    b.windows.prgLow % b.banks.prg * 0x4000 + within address 0x4000
  else
    b.windows.prgHigh % b.banks.prg * 0x4000 + within address 0x4000

/-- What a processor read reaches. -/
@[inline] def cpuRead (b : Mmc1) (address : UInt16) : Option ReadTarget :=
  if 0x8000 ≤ address then some (.prg (b.prgOffset address))
  else if 0x6000 ≤ address then some (.ram (b.ram.read (within address 0x2000)))
  else none

/-- Puts a complete value into the register that an address chooses. -/
def commit (b : Mmc1) (address : UInt16) (value : UInt8) : Mmc1 :=
  updateWindows { b with
    registers := b.registers.put address value
    nametables := if address < 0xA000 then nametablesOf value else b.nametables }

/-- A write with bit 7 set empties the shift register and goes back to the program mode of
power-on. -/
def clearShift (b : Mmc1) : Mmc1 :=
  updateWindows { b with
    shift := {}
    registers := { b.registers with control := b.registers.control ||| 0x0C } }

/-- The gate drops a write of this instruction. -/
def drops (b : Mmc1) (step : UInt64) : Bool :=
  b.serialGate && step == b.lastStep + 1

/-- One write to the shift register by the instruction with number `step`. -/
def writeBit (b : Mmc1) (address : UInt16) (data : UInt8) (step : UInt64) : Mmc1 :=
  if data &&& 0x80 != 0 then
    b.clearShift
  else if b.drops step then
    b
  else
    -- Only a write that the gate lets through counts for the next one.
    let b := if b.serialGate then { b with lastStep := step } else b
    match b.shift.push data with
    | (some value, shift) => { b with shift }.commit address value
    | (none, shift) => { b with shift }

/-- A processor write: RAM below the upper half of memory, the shift register there. -/
def cpuWrite (b : Mmc1) (address : UInt16) (data : UInt8) (step : UInt64) :
    Option WriteTarget × Mmc1 :=
  if 0x8000 ≤ address then (none, b.writeBit address data step)
  else if 0x6000 ≤ address then
    (some .ram, { b with ram := b.ram.write (within address 0x2000) data })
  else (none, b)

/-- The offset in pattern memory that an access of the picture unit reaches. -/
@[inline] def chrOffset (b : Mmc1) (address : UInt16) : Nat :=
  if b.banks.chr = 0 then
    address.toNat
  else if b.registers.splitsChr then
    let bank := if address < 0x1000 then b.windows.chrLow else b.windows.chrHigh
    bank % (b.banks.chr * 2) * 0x1000 + within address 0x1000
  else
    b.windows.chrWhole % b.banks.chr * 0x2000 + within address 0x2000

/-- The board's state as a line of text. -/
def describe (b : Mmc1) : String :=
  s!"MMC1 control=${Hex.byte b.registers.control} load=${Hex.byte b.shift.bits}/{b.shift.count} "
    ++ s!"chr=[{Hex.byte b.registers.chr0},{Hex.byte b.registers.chr1}] "
    ++ s!"prg=${Hex.byte b.registers.prg}"

end Mmc1

end Famicom.Board
