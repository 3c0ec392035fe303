import Famicom.Arithmetic.Wrap
import Famicom.Console.Picture

/-!
# A picture unit of eight registers

A picture unit for trying out a console: its registers hold what was written to them, and frames,
interrupts and scanlines come at fixed distances.

## Main definitions

* `RegisterPicture` — the picture unit
-/

namespace Famicom.Bench

/-- A picture unit of eight registers. -/
structure RegisterPicture where
  registers : Vector UInt8 8 := .replicate 8 0
  clocks : UInt64 := 0
  nmi : Bool := false
  /-- The clocks between two interrupts; none if zero. -/
  nmiLength : UInt64 := 0
  /-- The clocks between two frames; none if zero. -/
  frameLength : UInt64 := 0
  /-- The clocks between two scanlines; none if zero. -/
  scanlineLength : UInt64 := 0
  frameDone : Bool := false
  resets : Nat := 0
  /-- The names of the boards that were connected, newest first. -/
  connected : List String := []
  /-- The registers that were read, each with whether it was a peek, newest first. -/
  reads : List (UInt16 × Bool) := []
  /-- The registers that were written, newest first. -/
  writes : List (UInt16 × UInt8) := []
  deriving DecidableEq, Repr

namespace RegisterPicture

/-- What comes every `length` clocks comes now. -/
def isDue (length clocks : UInt64) : Bool :=
  length != 0 && clocks % length == 0

/-- One clock. -/
def clock (p : RegisterPicture) : PatternProgram RegisterPicture :=
  let clocks := p.clocks + 1
  let p := { p with
    clocks
    frameDone := p.frameDone || isDue p.frameLength clocks
    nmi := p.nmi || isDue p.nmiLength clocks }
  if isDue p.scanlineLength clocks then .scanline (.done p) else .done p

/-- The place of a register. -/
def registerIndex (register : UInt16) : Fin 8 :=
  wrapTo register.toNat

/-- A read of a register. -/
def readRegister (p : RegisterPicture) (register : UInt16) (peek : Bool) :
    PatternProgram (UInt8 × RegisterPicture) :=
  .done (p.registers[registerIndex register], { p with reads := (register, peek) :: p.reads })

/-- A write to a register. -/
def writeRegister (p : RegisterPicture) (register : UInt16) (data : UInt8) :
    PatternProgram RegisterPicture :=
  .done { p with
    registers := p.registers.set (registerIndex register) data
    writes := (register, data) :: p.writes }

/-- Forgets what was read and written. -/
def forget (p : RegisterPicture) : RegisterPicture :=
  { p with reads := [], writes := [] }

instance : PictureUnit RegisterPicture where
  clock := clock
  readRegister := readRegister
  writeRegister := writeRegister
  connect p c := { p with connected := c.board.name :: p.connected }
  reset p := { p with resets := p.resets + 1 }
  pollNmi p := (p.nmi, { p with nmi := false })
  frameComplete p := p.frameDone
  beginFrame p := { p with frameDone := false }

end RegisterPicture

end Famicom.Bench
