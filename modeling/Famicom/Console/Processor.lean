/-!
# Processors

The processor owns no devices. Whatever it does it does as a program of reads and writes, which the
console runs against its devices.

## Main definitions

* `BusProgram` — reads and writes, each of which may depend on what was read before
* `Processor` — what the console asks of a processor
-/

namespace Famicom

/-- Reads and writes of the processor, ending in an `α`. -/
inductive BusProgram (α : Type) where
  | done (a : α)
  /-- A read. A peek leaves every device as it is. -/
  | read (address : UInt16) (peek : Bool) (next : UInt8 → BusProgram α)
  | write (address : UInt16) (data : UInt8) (next : BusProgram α)

/-- What the console asks of a processor whose state is a `κ`. -/
class Processor (κ : Type) where
  /-- One clock. -/
  clock : κ → BusProgram κ
  /-- The reset line. -/
  reset : κ → BusProgram κ
  /-- An interrupt that cannot be masked. -/
  nmi : κ → BusProgram κ
  /-- An interrupt request. -/
  irq : κ → BusProgram κ
  /-- How many instructions have been executed. -/
  instructions : κ → UInt64

end Famicom
