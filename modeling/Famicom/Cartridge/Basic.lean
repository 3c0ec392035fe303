import Famicom.Cartridge.Image
import Famicom.Cartridge.Save
import Famicom.Digest.Base64
import Famicom.Digest.Sha1

/-!
# Cartridges

A cartridge is a board with its program and pattern memory. One that was opened from a file may keep
the RAM of its board in another file.

## Main definitions

* `Cartridge` — the cartridge
* `Cartridge.ofImage` — the cartridge of an image
* `Cartridge.openFile` — the cartridge of an image file, with its save
* `Cartridge.cpuRead`, `Cartridge.cpuWrite` — accesses of the processor
* `Cartridge.patternRead`, `Cartridge.patternWrite` — accesses of the picture unit
-/

namespace Famicom

/-- A cartridge. -/
structure Cartridge where
  header : Header
  container : Container
  prg : Block
  chr : Block
  board : Board
  persistence : Persistence := .unused

/-- Why the image file at a path cannot be opened. -/
inductive OpenError where
  | unreadable (path reason : String)
  | unusable (path : String) (error : LoadError)
  deriving DecidableEq, Repr

namespace OpenError

/-- What could not be done. -/
def context : OpenError → String
  | .unreadable path _ => s!"failed to read ROM: {path}"
  | .unusable path _ => s!"failed to load ROM: {path}"

/-- Why not. -/
def cause : OpenError → String
  | .unreadable _ reason => reason
  | .unusable _ error => error.message

/-- Both in one line. -/
def message (e : OpenError) : String :=
  e.context ++ ": " ++ e.cause

end OpenError

namespace Cartridge

variable {δ : Type}

/-- The cartridge of an image. -/
def ofImage (image : ByteArray) : Except LoadError Cartridge := do
  let parsed ← Image.parse image
  let number := parsed.header.mapperNumber
  match Board.ofNumber? number parsed.banks with
  | some board =>
    pure {
      header := parsed.header
      container := parsed.container
      prg := parsed.prg
      chr := parsed.chr
      board }
  | none => throw (.unsupportedBoard number)

/-! ### Saves -/

/-- Finds the save at a path. A save that exists and can be read becomes the RAM of the board. -/
def attachSave [FileStore δ] (c : Cartridge) (path : String) (store : δ) : Cartridge :=
  if c.board.ram?.isNone then
    c
  else if FileStore.contains store path then
    match FileStore.read store path with
    | .ok image =>
      { c with board := (c.board.loadRam image).getD c.board, persistence := .file path }
    | .error reason => { c with persistence := .failed ⟨.read, path, reason⟩ }
  else
    { c with persistence := .file path }

/-- The cartridge of the image file at a path. With a battery it has a save, in a directory of its
own or beside the image. -/
def openFile [FileStore δ] (path : String) (saveDirectory : Option String) (store : δ) :
    Except OpenError Cartridge :=
  match FileStore.read store path with
  | .error reason => .error (.unreadable path reason)
  | .ok image =>
    match ofImage image with
    | .error error => .error (.unusable path error)
    | .ok c =>
      .ok (if c.header.hasBattery then
        c.attachSave (Persistence.pathFor path saveDirectory) store
      else
        c)

/-- Writes the RAM of the board to the save. -/
def persist [FileStore δ] (c : Cartridge) (store : δ) : Cartridge × δ :=
  match c.persistence, c.board.ram? with
  | .file path, some ram =>
    match FileStore.write store path ram.bytes with
    | (none, store) => (c, store)
    | (some reason, store) => ({ c with persistence := .failed ⟨.write, path, reason⟩ }, store)
  | _, _ => (c, store)

/-! ### Accesses -/

/-- A processor read, if the cartridge answers it. -/
@[inline] def cpuRead (c : Cartridge) (address : UInt16) : Option UInt8 :=
  match c.board.cpuRead address with
  | some (.prg offset) => some (c.prg.read offset)
  | some (.ram byte) => some byte
  | none => none

/-- A processor write by the instruction with number `step`. The first result tells whether the
cartridge takes it from all other devices. RAM with a battery is saved at once. -/
def cpuWrite [FileStore δ] (c : Cartridge) (address : UInt16) (data : UInt8) (step : UInt64)
    (store : δ) : Bool × Cartridge × δ :=
  -- The cartridge is taken apart so that nothing else holds its memory while it changes.
  match c with
  | ⟨header, container, prg, chr, board, persistence⟩ =>
    match board.cpuWrite address data step with
    | (none, board) => (false, ⟨header, container, prg, chr, board, persistence⟩, store)
    | (some (.prg offset), board) =>
      (true, ⟨header, container, prg.write offset data, chr, board, persistence⟩, store)
    | (some .ram, board) =>
      let c : Cartridge := ⟨header, container, prg, chr, board, persistence⟩
      if header.hasBattery then (true, c.persist store) else (true, c, store)

/-- A read of the picture unit, if it is one of patterns. -/
def patternRead (c : Cartridge) (address : UInt16) : Option UInt8 × Cartridge :=
  match c with
  | ⟨header, container, prg, chr, board, persistence⟩ =>
    let (offset, board) := board.chrRead address
    (offset.map chr.read, ⟨header, container, prg, chr, board, persistence⟩)

/-- A write of the picture unit. The first result tells whether it changed pattern memory. -/
def patternWrite (c : Cartridge) (address : UInt16) (data : UInt8) : Bool × Cartridge :=
  match c.board.chrWrite address with
  | some offset =>
    match c with
    | ⟨header, container, prg, chr, board, persistence⟩ =>
      (true, ⟨header, container, prg, chr.write offset data, board, persistence⟩)
  | none => (false, c)

/-- The layout of the name tables. A board without a switch leaves it to the header. -/
def nametables (c : Cartridge) : NametableLayout :=
  match c.board.nametables with
  | .hardware => c.header.nametables
  | nametables => nametables

/-- The reset line of the console. -/
def reset (c : Cartridge) : Cartridge :=
  { c with board := c.board.reset }

/-- The board asks for an interrupt. -/
def irqPending (c : Cartridge) : Bool :=
  c.board.irqPending

/-- Withdraws the interrupt. -/
def clearIrq (c : Cartridge) : Cartridge :=
  { c with board := c.board.clearIrq }

/-- One scanline of the picture. -/
def scanline (c : Cartridge) : Cartridge :=
  { c with board := c.board.scanline }

/-- Sets the gate of an MMC1 board. -/
def setGate (c : Cartridge) (enabled : Bool) : Cartridge :=
  { c with board := c.board.setGate enabled }

/-! ### Description -/

/-- Banks of 16 KiB of program memory. -/
def prgBanks (c : Cartridge) : Nat :=
  c.board.banks.prg

/-- Banks of 8 KiB of pattern ROM. -/
def chrBanks (c : Cartridge) : Nat :=
  c.board.banks.chr

/-- The SHA-1 digest of program memory in Base64. -/
def prgDigest (c : Cartridge) : String :=
  Digest.Base64.encode (Digest.Sha1.digest c.prg.bytes)

/-- The SHA-1 digest of pattern memory in Base64. -/
def chrDigest (c : Cartridge) : String :=
  Digest.Base64.encode (Digest.Sha1.digest c.chr.bytes)

end Cartridge

end Famicom
