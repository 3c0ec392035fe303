import Famicom.Console.Processor

/-!
# A processor that follows a script

A processor for trying out a console: each clock takes one access from a script, each interrupt
makes the accesses of a list of its own, and all that was read is kept.

## Main definitions

* `Access` — what the processor is told to do
* `ScriptedProcessor` — the processor
-/

namespace Famicom.Bench

/-- What the processor is told to do. -/
inductive Access where
  | read (address : UInt16)
  | peek (address : UInt16)
  | write (address : UInt16) (data : UInt8)
  | pause
  deriving DecidableEq, Repr

/-- The lines that reach the processor. -/
inductive Line where
  | reset
  | nmi
  | irq
  deriving DecidableEq, Repr

/-- Signals on one line without any on another between them. -/
structure Signal where
  line : Line
  /-- The clocks when the first came. -/
  since : UInt64
  count : Nat
  deriving DecidableEq, Repr

/-- A processor that follows a script. -/
structure ScriptedProcessor where
  /-- What the coming clocks do. -/
  script : List Access := []
  onReset : List Access := []
  onNmi : List Access := []
  onIrq : List Access := []
  clocks : UInt64 := 0
  /-- What was read, newest first. -/
  reads : List (UInt16 × UInt8) := []
  /-- What came on the lines, newest first. -/
  signals : List Signal := []
  deriving DecidableEq, Repr

namespace ScriptedProcessor

/-- Keeps a byte that was read. -/
def keep (p : ScriptedProcessor) (address : UInt16) (byte : UInt8) : ScriptedProcessor :=
  { p with reads := (address, byte) :: p.reads }

/-- Does what it is told, one after the other. -/
def perform (p : ScriptedProcessor) : List Access → BusProgram ScriptedProcessor
  | [] => .done p
  | .read address :: rest => .read address false fun byte => (p.keep address byte).perform rest
  | .peek address :: rest => .read address true fun byte => (p.keep address byte).perform rest
  | .write address data :: rest => .write address data (p.perform rest)
  | .pause :: rest => p.perform rest

/-- One clock does the first thing in the script. -/
def clock (p : ScriptedProcessor) : BusProgram ScriptedProcessor :=
  let p := { p with clocks := p.clocks + 1 }
  match p.script with
  | [] => .done p
  | access :: script => { p with script }.perform [access]

/-- Keeps a signal. -/
def note (p : ScriptedProcessor) (line : Line) : ScriptedProcessor :=
  match p.signals with
  | last :: before =>
    if last.line = line then
      { p with signals := { last with count := last.count + 1 } :: before }
    else
      { p with signals := ⟨line, p.clocks, 1⟩ :: last :: before }
  | [] => { p with signals := [⟨line, p.clocks, 1⟩] }

/-- Adds to the script. -/
def append (p : ScriptedProcessor) (accesses : List Access) : ScriptedProcessor :=
  { p with script := p.script ++ accesses }

/-- Forgets what was kept. -/
def forget (p : ScriptedProcessor) : ScriptedProcessor :=
  { p with reads := [], signals := [] }

instance : Processor ScriptedProcessor where
  clock := clock
  reset p := (p.note .reset).perform p.onReset
  nmi p := (p.note .nmi).perform p.onNmi
  irq p := (p.note .irq).perform p.onIrq
  instructions p := p.clocks

end ScriptedProcessor

end Famicom.Bench
