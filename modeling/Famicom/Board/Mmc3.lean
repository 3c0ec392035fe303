import Famicom.Arithmetic.Wrap
import Famicom.Board.Wiring
import Famicom.Text.Hex

/-!
# MMC3 boards

An MMC3 board has eight bank registers behind one address, a switchable layout of the name tables
and a counter of scanlines that raises interrupts.

The counter counts scanlines down from its reload value. A reload of zero raises an interrupt at
every scanline, because the counter is at zero each time it has been reloaded.

## Main definitions

* `Mmc3.Layout` — the offsets of the windows, found when a bank register or a mode changes
* `Mmc3.LineCounter` — the counter of scanlines
* `Mmc3` — the board
-/

namespace Famicom.Board

namespace Mmc3

/-- The bank registers, the one that the next write goes to, and the two modes. -/
structure Registers where
  target : Fin 8 := wrapTo 0
  /-- The first and third program windows change places. -/
  prgMode : Bool := false
  /-- The two halves of pattern memory change places. -/
  chrInversion : Bool := false
  values : Vector UInt8 8 := .replicate 8 0
  deriving DecidableEq, Repr

/-- Chooses the target and the modes. -/
def Registers.select (r : Registers) (data : UInt8) : Registers :=
  { r with
    target := wrapTo data.toNat
    prgMode := data &&& 0x40 != 0
    chrInversion := data &&& 0x80 != 0 }

/-- Puts a bank number into the target. -/
def Registers.put (r : Registers) (data : UInt8) : Registers :=
  { r with values := r.values.set r.target data }

/-- The eight pattern banks of 1 KiB, before they wrap around the memory there is. -/
def Registers.chrBanks (r : Registers) : Vector UInt8 8 :=
  let v := r.values
  if r.chrInversion then
    #v[v[2], v[3], v[4], v[5], v[0] &&& 0xFE, v[0] ||| 1, v[1] &&& 0xFE, v[1] ||| 1]
  else
    #v[v[0] &&& 0xFE, v[0] ||| 1, v[1] &&& 0xFE, v[1] ||| 1, v[2], v[3], v[4], v[5]]

/-- The banks of 8 KiB of program memory. -/
def prgCount (banks : BankCounts) : Nat :=
  banks.prg * 2

/-- The banks of 1 KiB of pattern memory. -/
def chrCount (banks : BankCounts) : Nat :=
  max (banks.chr * 8) 8

/-- The four program banks of 8 KiB. -/
def Registers.prgBanks (r : Registers) (banks : BankCounts) : Vector Nat 4 :=
  let count := prgCount banks
  let first := (r.values[6] &&& 0x3F).toNat % count
  let second := (r.values[7] &&& 0x3F).toNat % count
  if r.prgMode then
    #v[count - 2, second, first, count - 1]
  else
    #v[first, second, count - 2, count - 1]

/-- The offsets of the windows of pattern and program memory. -/
structure Layout where
  chr : Vector Nat 8
  prg : Vector Nat 4
  deriving DecidableEq, Repr

/-- The layout before anything is programmed. -/
def Layout.initial (banks : BankCounts) : Layout :=
  let count := prgCount banks
  { chr := .replicate 8 0
    prg := #v[0, 1 % count, count - 2, count - 1].map (· * 0x2000) }

/-- The layout that the registers stand for. -/
def Layout.ofRegisters (banks : BankCounts) (r : Registers) : Layout :=
  { chr := r.chrBanks.map fun bank => bank.toNat % chrCount banks * 0x0400
    prg := (r.prgBanks banks).map (· * 0x2000) }

/-- The counter of scanlines. -/
structure LineCounter where
  /-- An interrupt is pending. -/
  active : Bool := false
  enabled : Bool := false
  counter : UInt8 := 0
  reload : UInt8 := 0
  deriving DecidableEq, Repr

/-- One scanline: the counter reloads at zero and counts down elsewhere; at zero it raises an
interrupt if it may. -/
def LineCounter.scanline (c : LineCounter) : LineCounter :=
  let counter := if c.counter = 0 then c.reload else c.counter - 1
  { c with counter, active := c.active || (counter = 0 && c.enabled) }

end Mmc3

open Mmc3 in
/-- An MMC3 board. -/
structure Mmc3 where
  banks : BankCounts
  ram : Block := blankRam
  registers : Registers := {}
  layout : Layout
  nametables : NametableLayout := .hardware
  lines : LineCounter := {}

namespace Mmc3

/-- The board at power-on. -/
def initial (banks : BankCounts) : Mmc3 :=
  { banks, layout := .initial banks }

/-- Back to power-on. RAM stays. -/
def reset (b : Mmc3) : Mmc3 :=
  { banks := b.banks, ram := b.ram, layout := .initial b.banks }

/-- What a processor read reaches. -/
@[inline] def cpuRead (b : Mmc3) (address : UInt16) : Option ReadTarget :=
  if 0x8000 ≤ address then
    let window : Fin 4 := wrapTo ((address.toNat - 0x8000) / 0x2000)
    some (.prg (b.layout.prg[window] + within address 0x2000))
  else if 0x6000 ≤ address then some (.ram (b.ram.read (within address 0x2000)))
  else none

/-- Replaces the registers and finds the layout again. -/
def program (b : Mmc3) (registers : Registers) : Mmc3 :=
  { b with registers, layout := .ofRegisters b.banks registers }

/-- A write to the upper half of memory: bank registers, name tables, then the scanline counter,
each pair at an even and an odd address. -/
def writeRegister (b : Mmc3) (address : UInt16) (data : UInt8) : Mmc3 :=
  let even := address &&& 0x0001 == 0
  if address < 0xA000 then
    b.program (if even then b.registers.select data else b.registers.put data)
  else if address < 0xC000 then
    if even then { b with nametables := .ofSwitch data } else b
  else if address < 0xE000 then
    if even then { b with lines := { b.lines with reload := data } }
    else { b with lines := { b.lines with counter := 0 } }
  else
    if even then { b with lines := { b.lines with enabled := false, active := false } }
    else { b with lines := { b.lines with enabled := true } }

/-- A processor write: RAM below the upper half of memory, registers there. -/
def cpuWrite (b : Mmc3) (address : UInt16) (data : UInt8) : Option WriteTarget × Mmc3 :=
  if 0x8000 ≤ address then (none, b.writeRegister address data)
  else if 0x6000 ≤ address then
    (some .ram, { b with ram := b.ram.write (within address 0x2000) data })
  else (none, b)

/-- The offset in pattern memory that an access of the picture unit reaches. -/
@[inline] def chrOffset (b : Mmc3) (address : UInt16) : Nat :=
  let slot : Fin 8 := wrapTo (within address 0x2000 / 0x0400)
  b.layout.chr[slot] + within address 0x0400

/-- One scanline of the picture. -/
def scanline (b : Mmc3) : Mmc3 :=
  { b with lines := b.lines.scanline }

/-- Withdraws the interrupt. -/
def clearIrq (b : Mmc3) : Mmc3 :=
  { b with lines := { b.lines with active := false } }

/-- The board's state as a line of text. -/
def describe (b : Mmc3) : String :=
  let values := ", ".intercalate (b.registers.values.toList.map Hex.byte)
  s!"MMC3 target={b.registers.target} regs=[{values}] irq reload={b.lines.reload} "
    ++ s!"counter={b.lines.counter} en={b.lines.enabled} active={b.lines.active}"

end Mmc3

end Famicom.Board
