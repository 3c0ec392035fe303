import Famicom.Audio.Synthesizer
import Famicom.Console.Controller
import Famicom.Console.Event
import Famicom.Console.Picture
import Famicom.Console.Processor

/-!
# The devices on the processor's bus

All that the processor can reach: work RAM, the picture and sound units, the controllers, the
cartridge, and the copier of sprite pages. The cartridge sees every access first.

A write to a register of the cartridge goes on to the device behind it. A write to memory on the
cartridge stays there, and so does every read that the cartridge answers.

## Main definitions

* `Devices` — the devices
* `Devices.read`, `Devices.write` — accesses of the processor
* `BusProgram.run` — a program of accesses
* `SpriteDma`, `Devices.stepSpriteDma` — the copier of sprite pages
* `Devices.serveDmc` — the delivery of sample bytes
-/

namespace Famicom

open Audio

/-- The copier of a page of memory to the picture unit. -/
inductive SpriteDma where
  | idle
  /-- It waits for an odd tick. -/
  | aligning (page address : UInt8)
  /-- It copies until its address comes round to where it began; `data` is the byte it holds. -/
  | copying (page address start data : UInt8)
  deriving DecidableEq, Repr

namespace SpriteDma

/-- The copier has the bus. -/
def isActive : SpriteDma → Bool
  | .idle => false
  | _ => true

/-- The address of a byte in a page. -/
def source (page address : UInt8) : UInt16 :=
  (page.toUInt16 <<< 8) ||| address.toUInt16

end SpriteDma

/-- The size of work RAM. -/
def workRamSize : Nat :=
  2048

/-- The devices on the processor's bus. `π` is the picture unit's state, `δ` the file system's. -/
structure Devices (π δ : Type) where
  ram : Block := .zeros workRamSize (by decide)
  picture : π
  sound : Synthesizer
  cartridge : Option Cartridge := none
  controllers : Controllers := {}
  dma : SpriteDma := .idle
  /-- How many more slots the last sample byte takes from the processor. -/
  stall : Nat := 0
  /-- How many instructions the processor had executed when it was last clocked. -/
  step : UInt64 := 0
  log : EventLog := .empty eventLogCapacity
  store : δ

namespace Devices

variable {π δ : Type}

/-- Logs an event. -/
def record (d : Devices π δ) (event : Event) : Devices π δ :=
  { d with log := d.log.push event }

/-! ### Accesses -/

/-- A read of a register of the picture unit, which answers only with a cartridge. -/
def readPicture [PictureUnit π] (d : Devices π δ) (register : UInt16) (peek : Bool) :
    UInt8 × Devices π δ :=
  match d.cartridge with
  | some c =>
    let ((byte, picture), c) := (PictureUnit.readRegister d.picture register peek).run c
    (byte, { d with picture, cartridge := some c })
  | none => (0, d)

/-- A write to a register of the picture unit. -/
def writePicture [PictureUnit π] (d : Devices π δ) (register : UInt16) (data : UInt8) :
    Devices π δ :=
  match d.cartridge with
  | some c =>
    let (picture, c) := (PictureUnit.writeRegister d.picture register data).run c
    { d with picture, cartridge := some c }
  | none => d

/-- A read of a controller. -/
def readController (d : Devices π δ) (player : Player) (peek : Bool) : UInt8 × Devices π δ :=
  let (bit, controllers) := d.controllers.read player peek
  (bit, { d with controllers })

/-- What the cartridge answers to a read. -/
def cartridgeRead (d : Devices π δ) (address : UInt16) : Option UInt8 :=
  match d.cartridge with
  | some c => c.cpuRead address
  | none => none

/-- A read that the cartridge does not answer. -/
def readConsole [PictureUnit π] (d : Devices π δ) (address : UInt16) (peek : Bool) :
    UInt8 × Devices π δ :=
  if address < 0x2000 then (d.ram.read address.toNat, d)
  else if address < 0x4000 then d.readPicture (address &&& 0x0007) peek
  else
    match address with
    | 0x4015 => (d.sound.status, d)
    | 0x4016 => d.readController .first peek
    | 0x4017 => d.readController .second peek
    | _ => (0, d)

/-- A read of the processor. -/
def read [PictureUnit π] (d : Devices π δ) (address : UInt16) (peek : Bool) :
    UInt8 × Devices π δ :=
  match d.cartridgeRead address with
  | some byte => (byte, d)
  | none => d.readConsole address peek

/-- Starts to copy a page, from the sprite address on. -/
def startSpriteDma [PictureUnit π] (d : Devices π δ) (page : UInt8) : Devices π δ :=
  let (address, d) := d.read 0x2003 false
  { d with dma := .aligning page address }.record (.spriteDmaStarted page address)

/-- A write that the cartridge leaves to other devices. -/
def writeConsole [PictureUnit π] (d : Devices π δ) (address : UInt16) (data : UInt8) :
    Devices π δ :=
  if address < 0x2000 then { d with ram := d.ram.write address.toNat data }
  else if address < 0x4000 then d.writePicture (address &&& 0x0007) data
  else if address = 0x4014 then d.startSpriteDma data
  else if address = 0x4016 then { d with controllers := d.controllers.strobeWith data }
  else if address ≤ 0x4017 then { d with sound := d.sound.write address data }
  else d

/-- Offers a write to the cartridge. The first result tells whether the cartridge takes it. -/
def cartridgeWrite [FileStore δ] (d : Devices π δ) (address : UInt16) (data : UInt8) :
    Bool × Devices π δ :=
  -- The devices are taken apart so that nothing else holds the cartridge while it changes.
  match d with
  | ⟨ram, picture, sound, cartridge, controllers, dma, stall, step, log, store⟩ =>
    match cartridge with
    | some c =>
      let (taken, c, store) := c.cpuWrite address data step store
      (taken, ⟨ram, picture, sound, some c, controllers, dma, stall, step, log, store⟩)
    | none => (false, ⟨ram, picture, sound, none, controllers, dma, stall, step, log, store⟩)

/-- A write of the processor. -/
def write [PictureUnit π] [FileStore δ] (d : Devices π δ) (address : UInt16) (data : UInt8) :
    Devices π δ :=
  -- A write to a register of the cartridge goes on to the other devices.
  match d.cartridgeWrite address data with
  | (true, d) => d
  | (false, d) => d.writeConsole address data

end Devices

/-- Runs a program of accesses. -/
def BusProgram.run {α π δ : Type} [PictureUnit π] [FileStore δ] :
    BusProgram α → Devices π δ → α × Devices π δ
  | .done a, d => (a, d)
  | .read address peek next, d =>
    let (byte, d) := d.read address peek
    (next byte).run d
  | .write address data next, d => next.run (d.write address data)

namespace Devices

variable {π δ : Type}

/-! ### Slots of the processor that go to others -/

/-- One step of the copier: it aligns to an odd tick, then reads in even ticks and writes in odd
ones, until its address has come round. -/
def stepSpriteDma [PictureUnit π] [FileStore δ] (d : Devices π δ) (tick : UInt64) : Devices π δ :=
  match d.dma with
  | .idle => d
  | .aligning page address =>
    if tick % 2 = 1 then { d with dma := .copying page address address 0 } else d
  | .copying page address start data =>
    if tick % 2 = 0 then
      let (data, d) := d.read (SpriteDma.source page address) false
      { d with dma := .copying page address start data }
    else
      let d := d.write 0x2004 data
      if address + 1 = start then
        { d with dma := .idle }.record (.spriteDmaCompleted page)
      else
        { d with dma := .copying page (address + 1) start data }

/-- How many slots of the processor a sample byte takes. -/
def slotsPerSampleByte : Nat :=
  4

/-- Serves the sample player, which takes the slot if a byte is being or has to be fetched. -/
def serveDmc [PictureUnit π] (d : Devices π δ) : Bool × Devices π δ :=
  if 0 < d.stall then
    (true, { d with stall := d.stall - 1 })
  else
    match d.sound.fetchAddress? with
    | none => (false, d)
    | some address =>
      let (byte, d) := d.read address false
      (true, { d with sound := d.sound.deliver byte, stall := slotsPerSampleByte - 1 })

end Devices

end Famicom
