import Famicom.Board.Basic
import Famicom.Cartridge.Header

/-!
# Cartridge images

An image is a header, an optional trainer, program memory and pattern memory, in this order. What
follows them is not read.

## Main definitions

* `Image` — an image taken apart
* `Image.parse` — takes an image apart, or says what is wrong with it
-/

namespace Famicom

/-- A cartridge image taken apart. -/
structure Image where
  header : Header
  container : Container
  /-- Program memory, filled up with zeros to whole banks. -/
  prg : Block
  /-- Pattern memory; an image that declares none stands for a blank bank of RAM. -/
  chr : Block
  banks : Board.BankCounts

namespace Image

/-- Program memory at an offset of an image. -/
def takePrg (image : ByteArray) (offset size banks : Nat) (h : 0 < banks) : Block :=
  let taken := image.extract offset (offset + size)
  ⟨taken ++ zeroBytes (banks * Header.prgUnit - taken.size), by
    have : 0 < banks * Header.prgUnit := Nat.mul_pos h (by decide)
    simp only [ByteArray.size_append, size_zeroBytes]
    omega⟩

/-- Pattern memory at an offset of an image. Images of the newest flavour may bring as much again as
they declare. -/
def takeChr (image : ByteArray) (offset banks : Nat) (container : Container) :
    Except LoadError Block :=
  if h : banks = 0 then
    .ok (.zeros Header.chrUnit (by decide))
  else
    let expected := banks * Header.chrUnit
    let available := image.size - offset
    if h' : available < expected then
      .error (.truncated .chrRom expected available)
    else
      let size := if container = .nes2 then min (expected * 2) available else expected
      .ok ⟨image.extract offset (offset + size), by
        have : 0 < banks * 8192 := Nat.mul_pos (Nat.pos_of_ne_zero h) (by decide)
        simp only [ByteArray.size_extract, size, expected, available, Header.chrUnit] at *
        split <;> omega⟩

/-- Takes an image apart. Its parts are checked in their order. -/
def parse (image : ByteArray) : Except LoadError Image := do
  let header ← Header.parse image
  let container := header.container image.size
  let offset := header.prgStart
  if image.size < offset then
    throw (.truncated .trainer Header.trainerSize (image.size - Header.size))
  let extent := header.extent container
  if h : 0 < extent.prgBanks then
    let available := image.size - offset
    if available < extent.prgSize then
      throw (.truncated .prgRom extent.prgSize available)
    let prg := takePrg image offset extent.prgSize extent.prgBanks h
    let chr ← takeChr image (offset + extent.prgSize) extent.chrBanks container
    pure { header, container, prg, chr, banks := ⟨extent.prgBanks, extent.chrBanks, h⟩ }
  else
    throw .noPrgRom

end Image

end Famicom
