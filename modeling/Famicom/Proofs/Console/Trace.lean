import Famicom.Proofs.Console.Run

/-!
# All that can be seen of a console at work

The log of the console tells of the bus: its accesses with their bytes, and the use of the
processor's slots. Here the same story is told with what happens off the bus, which is the accesses
of the picture unit to the cartridge and the interrupts that are dispatched. What happens in a tick
or another operation is told in its order and comes with the number of the tick.

## Main definitions

* `PatternAccess`, `PatternProgram.accesses` — the accesses of the picture unit as they are made
* `Sight` — what can be seen
* `Machine.sights` — what can be seen in an operation
* `Machine.Scene` — an operation with its tick and all that can be seen in it

## Main results

* `Machine.filterMap_logged?_sights` — what is seen on the bus is what the log tells
-/

namespace Famicom

/-! ### The picture unit -/

/-- An access of the picture unit to the cartridge as it was made. -/
inductive PatternAccess where
  | read (address : UInt16) (byte : Option UInt8)
  | write (address : UInt16) (data : UInt8) (taken : Bool)
  | nametables (layout : NametableLayout)
  | scanline
  deriving DecidableEq, Repr

/-- The accesses that a program of the picture unit makes when it is run. -/
def PatternProgram.accesses {α : Type} : PatternProgram α → Cartridge → List PatternAccess
  | .done _, _ => []
  | .read address next, c =>
    .read address (c.patternRead address).1 ::
      (next (c.patternRead address).1).accesses (c.patternRead address).2
  | .write address data next, c =>
    .write address data (c.patternWrite address data).1 ::
      (next (c.patternWrite address data).1).accesses (c.patternWrite address data).2
  | .nametables next, c => .nametables c.nametables :: (next c.nametables).accesses c
  | .scanline next, c => .scanline :: next.accesses c.scanline

/-! ### Sights -/

/-- What interrupts the processor. -/
inductive Interrupt where
  | picture
  | cartridge
  | sound
  deriving DecidableEq, Repr

/-- What can be seen of a console at work. -/
inductive Sight where
  /-- What the log tells. -/
  | logged (entry : Happening)
  | pattern (access : PatternAccess)
  | dispatch (interrupt : Interrupt)
  deriving DecidableEq, Repr

/-- What the log tells of it. -/
@[simp] def Sight.logged? : Sight → Option Happening
  | .logged entry => some entry
  | .pattern _ | .dispatch _ => none

variable {κ π δ : Type} [PictureUnit π]

namespace Devices

/-- The address of a register of the picture unit. -/
def isPictureRegister (address : UInt16) : Bool :=
  0x2000 ≤ address && address < 0x4000

/-- What the picture unit does when a register is read. -/
def patternsOfRead (d : Devices π δ) (address : UInt16) (peek : Bool) : List PatternAccess :=
  match d.cartridge with
  | some c =>
    if isPictureRegister address then
      (PictureUnit.readRegister d.picture (address &&& 0x0007) peek).accesses c
    else
      []
  | none => []

/-- What the picture unit does when a register is written. -/
def patternsOfWrite (d : Devices π δ) (address : UInt16) (data : UInt8) : List PatternAccess :=
  match d.cartridge with
  | some c =>
    if isPictureRegister address then
      (PictureUnit.writeRegister d.picture (address &&& 0x0007) data).accesses c
    else
      []
  | none => []

/-- What the picture unit does on an access of the bus. -/
def patternsOf (d : Devices π δ) : BusAccess → List PatternAccess
  | .read address peek _ => d.patternsOfRead address peek
  | .write address data => d.patternsOfWrite address data
  | .startCopy _ _ => d.patternsOfRead 0x2003 false

/-- What can be seen of accesses that are made one by one. -/
def sightsAlong [FileStore δ] (origin : Origin) : List BusAccess → Devices π δ → List Sight
  | [], _ => []
  | access :: rest, d =>
    .logged (.access origin access) :: (d.patternsOf access).map .pattern ++
      sightsAlong origin rest (d.perform access)

end Devices

namespace Machine

variable [FileStore δ]

/-- What can be seen of a program of the processor. -/
def programSights (m : Machine κ π δ) (origin : Origin) (program : BusProgram κ) : List Sight :=
  Devices.sightsAlong origin (program.accesses m.devices) m.devices

omit [FileStore δ] in
/-- What can be seen of a dot of the picture unit. -/
def pictureSights (m : Machine κ π δ) : List Sight :=
  match m.devices.cartridge with
  | some c => ((PictureUnit.clock m.devices.picture).accesses c).map .pattern
  | none => []

variable [Processor κ]

/-- What can be seen of a slot. -/
def slotSights (m : Machine κ π δ) : List Sight :=
  .logged (.slot m.ticks (m.devices.slotUse m.ticks)) ::
    match m.devices.slotUse m.ticks with
    | .copier access => (access.elim [] m.devices.patternsOf).map .pattern
    | .fetch address byte => (m.devices.patternsOf (.read address false byte)).map .pattern
    | .stall => []
    | .processor => m.countInstructions.programSights .processor (Processor.clock m.processor)

/-- What can be seen when the picture unit is polled. -/
def nmiSights (m : Machine κ π δ) : List Sight :=
  let (pending, picture) := PictureUnit.pollNmi m.devices.picture
  let m := m.mapDevices fun d => { d with picture }
  if pending then .dispatch .picture :: m.programSights .interrupt (Processor.nmi m.processor)
  else []

/-- What can be seen when the cartridge is polled. -/
def cartridgeIrqSights (m : Machine κ π δ) : List Sight :=
  match m.devices.cartridge with
  | some c =>
    if c.irqPending then
      let m := m.mapDevices fun d => { d with cartridge := some c.clearIrq }
      .dispatch .cartridge :: m.programSights .interrupt (Processor.irq m.processor)
    else
      []
  | none => []

/-- What can be seen when the sound unit is polled. -/
def soundIrqSights (m : Machine κ π δ) : List Sight :=
  if m.devices.sound.irqPending then
    .dispatch .sound :: m.programSights .interrupt (Processor.irq m.processor)
  else
    []

/-- What can be seen of the polls of a tick. -/
def pollSights (m : Machine κ π δ) : List Sight :=
  m.nmiSights ++ (m.pollNmi.cartridgeIrqSights ++ m.pollNmi.pollCartridgeIrq.soundIrqSights)

/-- What can be seen of a tick. -/
def clockSights (m : Machine κ π δ) : List Sight :=
  m.pictureSights ++
    match m.clockPicture.clockSound with
    | .ok m =>
      (if m.ticks % 3 = 0 then m.slotSights else []) ++ m.slot.sampleAudio.2.pollSights
    | .error _ => []

/-- What can be seen of a reset. -/
def resetSights (m : Machine κ π δ) : List Sight :=
  m.resetCartridge.programSights .reset (Processor.reset m.processor) ++ [.logged .reset]

/-- What can be seen of an operation. -/
def sights (m : Machine κ π δ) : Operation κ π δ → List Sight
  | .clock => m.clockSights
  | .reset => m.resetSights
  | .load path =>
    match Cartridge.openFile path m.settings.saveDirectory m.devices.store with
    | .ok cartridge => (m.insert cartridge).resetSights
    | .error _ => []
  | .read address peek =>
    Devices.sightsAlong .outside [.read address peek (m.devices.read address peek).1] m.devices
  | .write address data =>
    Devices.sightsAlong .outside [m.devices.writeAccess address data] m.devices
  | _ => []

/-! ### The log -/

omit [Processor κ] in
@[simp] theorem filterMap_logged?_sightsAlong (origin : Origin) (accesses : List BusAccess)
    (d : Devices π δ) : (Devices.sightsAlong origin accesses d).filterMap Sight.logged? =
      accesses.map (.access origin) := by
  induction accesses generalizing d with
  | nil => rfl
  | cons access accesses ih => simp [Devices.sightsAlong, ih]

omit [Processor κ] in
@[simp] theorem filterMap_logged?_programSights (m : Machine κ π δ) (origin : Origin)
    (program : BusProgram κ) :
    (m.programSights origin program).filterMap Sight.logged? = m.programLog origin program :=
  filterMap_logged?_sightsAlong ..

theorem filterMap_logged?_slotSights (m : Machine κ π δ) :
    m.slotSights.filterMap Sight.logged? = m.slotLog := by
  unfold slotSights slotLog
  cases m.devices.slotUse m.ticks <;> simp

theorem filterMap_logged?_pollSights (m : Machine κ π δ) :
    m.pollSights.filterMap Sight.logged? = m.pollLog := by
  have nmi (m : Machine κ π δ) : m.nmiSights.filterMap Sight.logged? = m.nmiLog := by
    unfold nmiSights nmiLog
    rcases PictureUnit.pollNmi m.devices.picture with ⟨_ | _, picture⟩ <;>
      simp [List.filterMap_cons]
  have cartridge (m : Machine κ π δ) :
      m.cartridgeIrqSights.filterMap Sight.logged? = m.cartridgeIrqLog := by
    unfold cartridgeIrqSights cartridgeIrqLog
    cases m.devices.cartridge with
    | none => rfl
    | some c =>
      cases pending : c.irqPending <;> simp [pending, List.filterMap_cons]
  have sound (m : Machine κ π δ) : m.soundIrqSights.filterMap Sight.logged? = m.soundIrqLog := by
    unfold soundIrqSights soundIrqLog
    cases m.devices.sound.irqPending <;> simp [List.filterMap_cons]
  simp only [pollSights, pollLog, List.filterMap_append, nmi, cartridge, sound]

theorem filterMap_logged?_clockSights (m : Machine κ π δ) :
    m.clockSights.filterMap Sight.logged? = m.clockLog := by
  have picture : m.pictureSights.filterMap Sight.logged? = [] := by
    unfold pictureSights
    split <;> simp
  unfold clockSights clockLog
  rw [List.filterMap_append, picture, List.nil_append]
  cases m.clockPicture.clockSound with
  | error fault => rfl
  | ok m =>
    dsimp only [lateLog]
    rw [List.filterMap_append, filterMap_logged?_pollSights]
    split
    · rw [filterMap_logged?_slotSights]
    · rfl

theorem filterMap_logged?_resetSights (m : Machine κ π δ) :
    m.resetSights.filterMap Sight.logged? = m.resetLog := by
  simp [resetSights, resetLog]

/-- What is seen on the bus is what the log tells. -/
theorem filterMap_logged?_sights (m : Machine κ π δ) (op : Operation κ π δ) :
    (m.sights op).filterMap Sight.logged? = m.happenings op := by
  cases op with
  | clock => exact m.filterMap_logged?_clockSights
  | reset => exact m.filterMap_logged?_resetSights
  | load path =>
    unfold sights happenings
    dsimp only
    cases Cartridge.openFile path m.settings.saveDirectory m.devices.store with
    | ok cartridge => exact (m.insert cartridge).filterMap_logged?_resetSights
    | error error => rfl
  | read address peek => exact filterMap_logged?_sightsAlong ..
  | write address data => exact filterMap_logged?_sightsAlong ..
  | _ => rfl

/-- An operation with its tick and all that can be seen in it. -/
structure Scene where
  tick : UInt64
  sights : List Sight
  deriving DecidableEq, Repr

/-- The scene of an operation. -/
def scene (m : Machine κ π δ) (op : Operation κ π δ) : Scene :=
  ⟨m.ticks, m.sights op⟩

end Machine

end Famicom
