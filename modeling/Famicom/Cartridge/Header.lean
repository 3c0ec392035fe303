import Famicom.Board.Wiring
import Famicom.Cartridge.LoadError

/-!
# Image headers

A cartridge image begins with 16 bytes that say how much memory follows and on what board it sits.

## Main definitions

* `Header` — the declarations
* `Header.parse` — reads them
* `Container` — the three flavours of an image
* `Header.container` — the flavour of an image of a given size
* `Header.extent` — the memory that an image of a flavour declares
-/

namespace Famicom

/-- The layout's name. -/
def NametableLayout.name : NametableLayout → String
  | .horizontal => "Horizontal"
  | .vertical => "Vertical"
  | .oneScreenLower => "OneScreenLower"
  | .oneScreenUpper => "OneScreenUpper"
  | .fourScreen => "FourScreen"
  | .hardware => "Hardware"

/-- The flavours of an image. -/
inductive Container where
  /-- Program memory is counted in units of 16 KiB. -/
  | ines
  /-- The counts have three more bits each. -/
  | nes2
  /-- Program memory is counted in units of 8 KiB. -/
  | halfPrg
  deriving DecidableEq, Repr

/-- The flavour's name. -/
def Container.name : Container → String
  | .ines => "Ines"
  | .nes2 => "Nes2"
  | .halfPrg => "HalfPrg"

/-- What the header of an image declares. -/
structure Header where
  /-- Units of program memory. -/
  prgChunks : UInt8
  /-- Units of pattern memory. -/
  chrChunks : UInt8
  /-- The lower half of the mapper number, and the flags. -/
  mapper1 : UInt8
  /-- The upper half of the mapper number, and the mark of the flavour. -/
  mapper2 : UInt8
  prgRamSize : UInt8
  tvSystem1 : UInt8
  tvSystem2 : UInt8
  reserved : Vector UInt8 5
  deriving DecidableEq, Repr

namespace Header

/-- The bytes of a header. -/
def size : Nat :=
  16

/-- The bytes of a trainer. -/
def trainerSize : Nat :=
  512

/-- The bytes of a unit of program memory. -/
def prgUnit : Nat :=
  16384

/-- The bytes of a unit of program memory in a `halfPrg` image. -/
def halfPrgUnit : Nat :=
  8192

/-- The bytes of a unit of pattern memory. -/
def chrUnit : Nat :=
  8192

/-- The mark that every header begins with. -/
def tag : Vector UInt8 4 :=
  #v[0x4E, 0x45, 0x53, 0x1A]

/-- The mark as text. -/
def tagName : String :=
  String.ofList (tag.toList.map fun byte => Char.ofNat byte.toNat)

/-- Reads the header of an image. -/
def parse (image : ByteArray) : Except LoadError Header :=
  let byte := byteAt image
  if image.size < size then
    .error (.truncated .header size image.size)
  else if #v[byte 0, byte 1, byte 2, byte 3] = tag then
    .ok {
      prgChunks := byte 4
      chrChunks := byte 5
      mapper1 := byte 6
      mapper2 := byte 7
      prgRamSize := byte 8
      tvSystem1 := byte 9
      tvSystem2 := byte 10
      reserved := #v[byte 11, byte 12, byte 13, byte 14, byte 15] }
  else
    .error .badTag

/-- The mapper number. -/
def mapperNumber (h : Header) : UInt8 :=
  let high := h.mapper2 &&& 0xF0
  let low := h.mapper1 >>> 4
  high ||| low

/-- A battery keeps the RAM on the board. -/
def hasBattery (h : Header) : Bool :=
  h.mapper1 &&& 0x02 != 0

/-- A trainer stands between the header and program memory. -/
def hasTrainer (h : Header) : Bool :=
  h.mapper1 &&& 0x04 != 0

/-- The cartridge brings the memory for four name tables. -/
def isFourScreen (h : Header) : Bool :=
  h.mapper1 &&& 0x08 != 0

/-- The layout of the name tables that the board is soldered for. -/
def nametables (h : Header) : NametableLayout :=
  if h.isFourScreen then .fourScreen
  else if h.mapper1 &&& 0x01 != 0 then .vertical
  else .horizontal

/-- Where program memory begins. -/
def prgStart (h : Header) : Nat :=
  if h.hasTrainer then size + trainerSize else size

/-- The flavour of an image of `imageSize` bytes. Two bits of the header mark the newest one. An
image that is too short for units of 16 KiB and has exactly the size for units of 8 KiB is an early
dump of half the memory. -/
def container (h : Header) (imageSize : Nat) : Container :=
  if h.mapper2 &&& 0x0C == 0x08 then
    .nes2
  else
    let chr := h.chrChunks.toNat * chrUnit
    let inesSize := h.prgStart + h.prgChunks.toNat * prgUnit + chr
    let halfSize := h.prgStart + h.prgChunks.toNat * halfPrgUnit + chr
    if imageSize < inesSize && imageSize == halfSize then .halfPrg else .ines

/-- The memory that an image declares. -/
structure Extent where
  /-- Banks of 16 KiB of program memory. -/
  prgBanks : Nat
  /-- Bytes of program memory in the image. -/
  prgSize : Nat
  /-- Banks of 8 KiB of pattern memory. -/
  chrBanks : Nat
  deriving DecidableEq, Repr

/-- The memory that an image of a flavour declares. -/
def extent (h : Header) : Container → Extent
  | .ines =>
    { prgBanks := h.prgChunks.toNat
      prgSize := h.prgChunks.toNat * prgUnit
      chrBanks := h.chrChunks.toNat }
  | .nes2 =>
    let prg := (h.prgRamSize &&& 0x07).toNat * 256 + h.prgChunks.toNat
    let chr := ((h.prgRamSize &&& 0x38) >>> 3).toNat * 256 + h.chrChunks.toNat
    { prgBanks := prg, prgSize := prg * prgUnit, chrBanks := chr }
  | .halfPrg =>
    let bytes := h.prgChunks.toNat * halfPrgUnit
    { prgBanks := (bytes + (prgUnit - 1)) / prgUnit
      prgSize := bytes
      chrBanks := h.chrChunks.toNat }

end Header

end Famicom
