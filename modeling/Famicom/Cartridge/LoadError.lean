/-!
# Why an image is refused

## Main definitions

* `Part` — the parts of an image
* `LoadError` — why an image cannot become a cartridge
* `LoadError.message` — its text
-/

namespace Famicom

/-- A part of a cartridge image. -/
inductive Part where
  | header
  | trainer
  | prgRom
  | chrRom
  deriving DecidableEq, Repr

/-- The name of a part. -/
def Part.name : Part → String
  | .header => "header"
  | .trainer => "trainer"
  | .prgRom => "PRG ROM"
  | .chrRom => "CHR ROM"

/-- Why an image cannot become a cartridge. -/
inductive LoadError where
  /-- The image does not begin with the mark of its format. -/
  | badTag
  /-- The header declares no program memory. -/
  | noPrgRom
  /-- The image ends in a part of it. -/
  | truncated (part : Part) (expected available : Nat)
  /-- No supported board has the mapper number. -/
  | unsupportedBoard (number : UInt8)
  deriving DecidableEq, Repr

/-- The text of a refusal. -/
def LoadError.message : LoadError → String
  | .badTag => "invalid ROM: bad header tag, expected NES<EOF>"
  | .noPrgRom => "invalid ROM: header declares no PRG ROM"
  | .truncated part expected available =>
    s!"invalid ROM: {part.name} needs {expected} bytes but only {available} remain"
  | .unsupportedBoard number => s!"unsupported mapper {number}"

end Famicom
