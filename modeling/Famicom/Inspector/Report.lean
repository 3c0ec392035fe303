import Famicom.Cartridge.Basic
import Famicom.Json.Document

/-!
# Reports on images

What the inspector tells about a cartridge image, as lines of text or as a JSON record.

## Main definitions

* `Report` — the facts about an image
* `Report.ofCartridge` — the facts about a cartridge
* `Report.toText`, `Report.toJson` — the two ways to tell them
-/

namespace Famicom.Inspector

/-- The facts about a cartridge image. -/
structure Report where
  file : String
  format : String
  mapperNumber : UInt8
  mapperName : String
  prgBanks : Nat
  chrBanks : Nat
  nametables : String
  battery : Bool
  trainer : Bool
  prgDigest : String
  chrDigest : String
  deriving DecidableEq, Repr

namespace Report

/-- The facts about the cartridge of the image in a file. -/
def ofCartridge (file : String) (c : Cartridge) : Report where
  file := file
  format := c.container.name
  mapperNumber := c.board.number
  mapperName := c.board.name
  prgBanks := c.prgBanks
  chrBanks := c.chrBanks
  nametables := c.nametables.name
  battery := c.header.hasBattery
  trainer := c.header.hasTrainer
  prgDigest := c.prgDigest
  chrDigest := c.chrDigest

/-- The pattern memory of the cartridge is RAM. -/
def chrIsRam (r : Report) : Bool :=
  r.chrBanks = 0

/-- The report as a document. -/
def toDocument (r : Report) : Json.Document :=
  .ofMembers [
    ("file", .string r.file),
    ("format", .string r.format),
    ("mapper_id", .number r.mapperNumber.toNat),
    ("mapper_name", .string r.mapperName),
    ("prg_banks", .number r.prgBanks),
    ("chr_banks", .number r.chrBanks),
    ("chr_ram", .bool r.chrIsRam),
    ("mirroring", .string r.nametables),
    ("battery", .bool r.battery),
    ("trainer", .bool r.trainer),
    ("prg_sha1", .string r.prgDigest),
    ("chr_sha1", .string r.chrDigest)]

/-- The report as JSON. -/
def toJson (r : Report) : String :=
  r.toDocument.pretty ++ "\n"

/-- A number with three digits at least. -/
def threeDigits (n : Nat) : String :=
  Hex.padded (Nat.toDigits 10 n) 3

/-- A fact that holds or does not. -/
def yesNo (fact : Bool) : String :=
  if fact then "yes" else "no"

/-- What is told about pattern memory. -/
def chrLine (r : Report) : String :=
  if r.chrIsRam then s!"CHR:        8 KiB RAM    sha1 {r.chrDigest}"
  else s!"CHR:        {r.chrBanks} x 8 KiB   sha1 {r.chrDigest}"

/-- The report as lines of text. -/
def toText (r : Report) : String :=
  String.join ([
    s!"File:       {r.file}",
    s!"Format:     {r.format}",
    s!"Mapper:     {r.mapperName} ({threeDigits r.mapperNumber.toNat})",
    s!"PRG:        {r.prgBanks} x 16 KiB  sha1 {r.prgDigest}",
    r.chrLine,
    s!"Mirroring:  {r.nametables}",
    s!"Battery:    {yesNo r.battery}",
    s!"Trainer:    {yesNo r.trainer}"].map (· ++ "\n"))

end Report

end Famicom.Inspector
