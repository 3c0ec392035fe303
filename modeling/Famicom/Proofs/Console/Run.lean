import Famicom.Console.Machine
import Famicom.Proofs.Console.Bus
import Famicom.Proofs.Transition

/-!
# Runs of the console

What can be done to the console from outside, in any order, and the log of what happens then: the
slots of the processor with their use, and every access of the bus with its origin.

## Main definitions

* `Machine.Operation`, `Machine.apply` — what can be done to the console
* `SlotUse`, `Devices.slotUse` — what a slot of the processor is used for
* `Happening`, `Machine.happenings` — what the log of an operation tells

## Main results

* `Machine.devices_runProcessor` — the devices after a program of the processor
* `Machine.useSlot_eq`, `Machine.useSlot_invariant` — a slot by its use, and what it preserves
* `Machine.isPoll_nmi`, `Machine.isPoll_cartridgeIrq`, `Machine.isPoll_soundIrq` — the polls of a
  tick
* `Machine.apply_clock_eq_ok_iff` — a tick is made of its phases
-/

namespace Famicom

open Audio

/-! ### Operations -/

/-- What can be done to the console from outside. The processor, the picture unit, the sound unit
and the cartridge can be changed in any way. Runs up to a sample or a frame are made of ticks. -/
inductive Machine.Operation (κ π δ : Type) where
  | clock
  | reset
  | insert (cartridge : Cartridge)
  | load (path : String)
  | read (address : UInt16) (peek : Bool)
  | write (address : UInt16) (data : UInt8)
  | press (number : Nat) (buttons : UInt8)
  | setSampleRate (rate : UInt32)
  | mapProcessor (f : κ → κ)
  | mapPicture (f : π → π)
  | mapSound (f : Synthesizer → Except Fault Synthesizer)
  | mapCartridge (f : Cartridge → δ → Cartridge × δ)

/-! ### The log -/

/-- What a slot of the processor is used for. -/
inductive SlotUse where
  /-- The copier of sprite pages has it, and makes an access unless it aligns. -/
  | copier (access : Option BusAccess)
  /-- A sample byte is fetched. -/
  | fetch (address : UInt16) (byte : UInt8)
  /-- A sample byte that was fetched before still takes it. -/
  | stall
  | processor
  deriving DecidableEq, Repr

namespace SlotUse

def isCopier : SlotUse → Bool
  | .copier _ => true
  | _ => false

end SlotUse

/-- On whose behalf an access is made. -/
inductive Origin where
  /-- A clock of the processor. -/
  | processor
  | interrupt
  | reset
  | outside
  deriving DecidableEq, Repr

/-- What happens on the console. -/
inductive Happening where
  | slot (tick : UInt64) (use : SlotUse)
  | access (origin : Origin) (access : BusAccess)
  | reset
  deriving DecidableEq, Repr

variable {κ π δ : Type} [Processor κ] [PictureUnit π] [FileStore δ]

namespace Devices

omit [FileStore δ] in
/-- The access that the copier makes in a slot. -/
def copierAccess? (d : Devices π δ) (tick : UInt64) : Option BusAccess :=
  match d.dma with
  | .idle | .aligning _ _ => none
  | .copying page address _ data =>
    if tick % 2 = 0 then
      let source := SpriteDma.source page address
      some (.read source false (d.read source false).1)
    else
      some (.write 0x2004 data)

omit [FileStore δ] in
/-- What a slot is used for. -/
def slotUse (d : Devices π δ) (tick : UInt64) : SlotUse :=
  if d.dma.isActive then .copier (d.copierAccess? tick)
  else if 0 < d.stall then .stall
  else
    match d.sound.fetchAddress? with
    | some address => .fetch address (d.read address false).1
    | none => .processor

omit [FileStore δ] in
theorem eq_copierAccess?_of_slotUse {d : Devices π δ} {tick : UInt64} {access : Option BusAccess}
    (use : d.slotUse tick = .copier access) : access = d.copierAccess? tick := by
  unfold slotUse at use
  split_ifs at use
  · exact (SlotUse.copier.inj use).symm
  · split at use <;> cases use

omit [FileStore δ] in
theorem eq_read_of_slotUse {d : Devices π δ} {tick : UInt64} {address : UInt16} {byte : UInt8}
    (use : d.slotUse tick = .fetch address byte) : byte = (d.read address false).1 := by
  unfold slotUse at use
  split_ifs at use
  split at use
  · obtain ⟨rfl, same⟩ := SlotUse.fetch.inj use
    exact same.symm
  · cases use

end Devices

/-- What the copier does to the devices is its access, but for its own state and the event log. -/
theorem Devices.exists_stepSpriteDma (d : Devices π δ) (tick : UInt64) :
    ∃ dma log, d.stepSpriteDma tick =
      { (d.copierAccess? tick).elim d d.perform with dma, log } := by
  unfold stepSpriteDma copierAccess?
  cases d.dma with
  | idle => exact ⟨_, _, rfl⟩
  | aligning page address =>
    dsimp only
    split <;> exact ⟨_, _, rfl⟩
  | copying page address start data =>
    dsimp only
    split
    · exact ⟨_, _, rfl⟩
    · split <;> exact ⟨_, _, rfl⟩

namespace Machine

/-- The console after an operation. A file of no use leaves it as it is. -/
def apply (m : Machine κ π δ) : Operation κ π δ → Except Fault (Machine κ π δ)
  | .clock => do pure (← m.clock).2
  | .reset => m.reset
  | .insert cartridge => .ok (m.insert cartridge)
  | .load path =>
    match m.load path with
    | .ok m => .ok m
    | .error (.image _) => .ok m
    | .error (.reset fault) => .error fault
  | .read address peek => .ok (m.read address peek).2
  | .write address data => .ok (m.write address data)
  | .press number buttons => .ok (m.press number buttons)
  | .setSampleRate rate => .ok (m.setSampleRate rate)
  | .mapProcessor f => .ok { m with processor := f m.processor }
  | .mapPicture f => .ok (m.mapDevices fun d => { d with picture := f d.picture })
  | .mapSound f => do
    let sound ← f m.devices.sound
    pure (m.mapDevices fun d => { d with sound })
  | .mapCartridge f =>
    .ok (m.mapDevices fun d =>
      match d.cartridge with
      | some c =>
        let (c, store) := f c d.store
        { d with cartridge := some c, store }
      | none => d)

/-- The accesses of a program of the processor. -/
def programLog (m : Machine κ π δ) (origin : Origin) (program : BusProgram κ) : List Happening :=
  (program.accesses m.devices).map (.access origin)

/-- The processor's count of instructions is taken before it is clocked. -/
def countInstructions (m : Machine κ π δ) : Machine κ π δ :=
  m.mapDevices fun d => { d with step := Processor.instructions m.processor }

/-- What happens in a slot. -/
def slotLog (m : Machine κ π δ) : List Happening :=
  let use := m.devices.slotUse m.ticks
  .slot m.ticks use ::
    if use = .processor then
      m.countInstructions.programLog .processor (Processor.clock m.processor)
    else
      []

/-- What happens when the picture unit is polled. -/
def nmiLog (m : Machine κ π δ) : List Happening :=
  let (pending, picture) := PictureUnit.pollNmi m.devices.picture
  let m := m.mapDevices fun d => { d with picture }
  if pending then m.programLog .interrupt (Processor.nmi m.processor) else []

/-- What happens when the cartridge is polled. -/
def cartridgeIrqLog (m : Machine κ π δ) : List Happening :=
  match m.devices.cartridge with
  | some c =>
    if c.irqPending then
      let m := m.mapDevices fun d => { d with cartridge := some c.clearIrq }
      m.programLog .interrupt (Processor.irq m.processor)
    else
      []
  | none => []

/-- What happens when the sound unit is polled. -/
def soundIrqLog (m : Machine κ π δ) : List Happening :=
  if m.devices.sound.irqPending then m.programLog .interrupt (Processor.irq m.processor) else []

/-- What happens in the polls of a tick. -/
def pollLog (m : Machine κ π δ) : List Happening :=
  m.nmiLog ++ (m.pollNmi.cartridgeIrqLog ++ m.pollNmi.pollCartridgeIrq.soundIrqLog)

/-- The slot of a tick, if it has one. -/
def slot (m : Machine κ π δ) : Machine κ π δ :=
  if m.ticks % 3 = 0 then m.useSlot else m

/-- The polls of a tick. -/
def poll (m : Machine κ π δ) : Machine κ π δ :=
  m.pollNmi.pollCartridgeIrq.pollSoundIrq

/-- What happens in a tick after picture and sound unit have moved. -/
def lateLog (m : Machine κ π δ) : List Happening :=
  (if m.ticks % 3 = 0 then m.slotLog else []) ++ m.slot.sampleAudio.2.pollLog

/-- What happens in a tick. -/
def clockLog (m : Machine κ π δ) : List Happening :=
  match m.clockPicture.clockSound with
  | .ok m => m.lateLog
  | .error _ => []

/-- The console while its processor is being reset. -/
def resetCartridge (m : Machine κ π δ) : Machine κ π δ :=
  m.mapDevices fun d => { d with cartridge := d.cartridge.map (·.reset) }

/-- What happens in a reset. -/
def resetLog (m : Machine κ π δ) : List Happening :=
  m.resetCartridge.programLog .reset (Processor.reset m.processor) ++ [.reset]

/-- What happens in an operation. -/
def happenings (m : Machine κ π δ) : Operation κ π δ → List Happening
  | .clock => m.clockLog
  | .reset => m.resetLog
  | .load path =>
    match Cartridge.openFile path m.settings.saveDirectory m.devices.store with
    | .ok cartridge => (m.insert cartridge).resetLog
    | .error _ => []
  | .read address peek =>
    [.access .outside (.read address peek (m.devices.read address peek).1)]
  | .write address data => [.access .outside (m.devices.writeAccess address data)]
  | _ => []

/-- What happens in a run. -/
abbrev log (m : Machine κ π δ) (ops : List (Operation κ π δ)) : List Happening :=
  runLog apply happenings ops m

/-- Loading a file that is of use is inserting its cartridge and a reset. -/
theorem apply_load (m : Machine κ π δ) (path : String) :
    m.apply (.load path) =
      match Cartridge.openFile path m.settings.saveDirectory m.devices.store with
      | .ok cartridge => (m.insert cartridge).reset
      | .error _ => .ok m := by
  unfold apply load
  dsimp only
  cases Cartridge.openFile path m.settings.saveDirectory m.devices.store with
  | error error => rfl
  | ok cartridge =>
    simp only [Except.mapError, bind, Except.bind]
    cases (m.insert cartridge).reset with
    | error fault => rfl
    | ok m' => rfl

/-! ### Phases of a tick -/

omit [Processor κ] in
theorem devices_runProcessor (m : Machine κ π δ) (program : BusProgram κ) :
    (m.runProcessor program).devices =
      (program.accesses m.devices).foldl Devices.perform m.devices := by
  rw [← program.run_eq_foldl]
  rfl

/-- A slot goes to whom the log says. -/
theorem useSlot_eq (m : Machine κ π δ) :
    m.useSlot =
      match m.devices.slotUse m.ticks with
      | .copier _ => m.mapDevices (·.stepSpriteDma m.ticks)
      | .fetch address byte => m.mapDevices fun d =>
        { (d.read address false).2 with
          sound := (d.read address false).2.sound.deliver byte
          stall := Devices.slotsPerSampleByte - 1 }
      | .stall => m.mapDevices fun d => { d with stall := d.stall - 1 }
      | .processor => m.countInstructions.runProcessor (Processor.clock m.processor) := by
  -- The copier comes first, then a byte that still takes slots, then one that is asked for.
  unfold useSlot Devices.slotUse Devices.serveDmc
  by_cases active : m.devices.dma.isActive
  · rw [if_pos active, if_pos active]
  · rw [if_neg active, if_neg active]
    by_cases stalled : 0 < m.devices.stall
    · rw [if_pos stalled, if_pos stalled]
      rfl
    · rw [if_neg stalled, if_neg stalled]
      cases m.devices.sound.fetchAddress? with
      | none => rfl
      | some address => rfl

/-- The accesses in a slot. -/
def slotAccesses (m : Machine κ π δ) : List BusAccess :=
  match m.devices.slotUse m.ticks with
  | .copier access => access.toList
  | .fetch address byte => [.read address false byte]
  | .stall => []
  | .processor => (Processor.clock m.processor).accesses m.countInstructions.devices

/-- Besides its accesses a slot may deliver a sample byte, and it moves the copier and what is
counted or logged. -/
theorem useSlot_invariant {P : Devices π δ → Prop} {m : Machine κ π δ}
    (perform : ∀ access ∈ m.slotAccesses, ∀ d, P d → P (d.perform access))
    (deliver : ∀ d byte, P d → P { d with sound := d.sound.deliver byte })
    (besides : ∀ d dma stall step log, P d → P { d with dma, stall, step, log })
    (holds : P m.devices) : P m.useSlot.devices := by
  unfold slotAccesses at perform
  rw [useSlot_eq]
  cases use : m.devices.slotUse m.ticks with
  | copier access =>
    rw [use] at perform
    obtain ⟨dma, log, stepped⟩ := m.devices.exists_stepSpriteDma m.ticks
    dsimp only [mapDevices]
    rw [stepped, ← Devices.eq_copierAccess?_of_slotUse use]
    cases access with
    | none => exact besides m.devices dma m.devices.stall m.devices.step log holds
    | some access =>
      exact besides _ dma _ _ log (perform access List.mem_cons_self _ holds)
  | fetch address byte =>
    rw [use] at perform
    have fetched := perform _ List.mem_cons_self _ holds
    exact besides _ _ _ _ _ (deliver _ byte fetched)
  | stall => exact besides m.devices _ _ _ _ holds
  | processor =>
    rw [use] at perform
    dsimp only
    rw [devices_runProcessor]
    exact Devices.foldl_perform_invariant perform (besides m.devices _ _ _ _ holds)

omit [Processor κ] [FileStore δ] in
/-- A dot of the picture unit changes the unit and the cartridge. -/
theorem exists_clockPicture (m : Machine κ π δ) :
    ∃ picture cartridge,
      m.clockPicture = m.mapDevices fun d => { d with picture, cartridge } := by
  unfold clockPicture mapDevices
  dsimp only
  split <;> exact ⟨_, _, rfl⟩

omit [Processor κ] [FileStore δ] in
/-- A tick of the sound unit after it changes that unit. -/
theorem exists_of_clockSound {m late : Machine κ π δ}
    (clocked : m.clockPicture.clockSound = .ok late) :
    ∃ picture cartridge sound,
      late = m.mapDevices fun d => { d with picture, cartridge, sound } := by
  obtain ⟨picture, cartridge, dotted⟩ := m.exists_clockPicture
  obtain ⟨sound, -, moved⟩ := bind_eq_ok.mp clocked
  obtain rfl := Except.ok.inj moved
  rw [dotted]
  exact ⟨picture, cartridge, sound, rfl⟩

/-- A tick is the sequence of its phases. -/
theorem clock_eq (m : Machine κ π δ) :
    m.clock = m.clockPicture.clockSound >>= fun m =>
      .ok (m.slot.sampleAudio.1,
        { m.slot.sampleAudio.2.poll with ticks := m.slot.sampleAudio.2.poll.ticks + 1 }) :=
  rfl

theorem apply_clock_eq_ok_iff {m m' : Machine κ π δ} :
    m.apply .clock = .ok m' ↔
      ∃ late, m.clockPicture.clockSound = .ok late ∧
        { late.slot.sampleAudio.2.poll with ticks := late.slot.sampleAudio.2.poll.ticks + 1 } =
          m' := by
  rw [apply, clock_eq]
  simp only [bind_eq_ok]
  constructor
  · rintro ⟨result, ⟨late, clocked, rest⟩, moved⟩
    obtain rfl := Except.ok.inj rest
    exact ⟨late, clocked, Except.ok.inj moved⟩
  · rintro ⟨late, clocked, rfl⟩
    exact ⟨_, ⟨late, clocked, rfl⟩, rfl⟩

omit [Processor κ] [PictureUnit π] [FileStore δ] in
/-- Taking a sample fills taps and counts time. -/
theorem exists_sampleAudio (m : Machine κ π δ) :
    ∃ taps audioTime audioSample, m.sampleAudio.2 =
      { m with
        devices := { m.devices with sound := { m.devices.sound with taps } }
        audioTime, audioSample } := by
  unfold sampleAudio
  dsimp only
  split
  · exact ⟨_, _, _, rfl⟩
  · exact ⟨m.devices.sound.taps, _, _, rfl⟩

omit [Processor κ] [PictureUnit π] [FileStore δ] in
@[simp] theorem ticks_sampleAudio (m : Machine κ π δ) : m.sampleAudio.2.ticks = m.ticks := by
  obtain ⟨_, _, _, sampled⟩ := m.exists_sampleAudio
  rw [sampled]

@[simp] theorem ticks_slot (m : Machine κ π δ) : m.slot.ticks = m.ticks := by
  unfold slot
  split
  · rw [useSlot_eq]
    split <;> rfl
  · rfl

@[simp] theorem ticks_poll (m : Machine κ π δ) : m.poll.ticks = m.ticks := by
  have nmi : m.pollNmi.ticks = m.ticks := by
    unfold pollNmi
    dsimp only
    split <;> rfl
  have irq : m.pollNmi.pollCartridgeIrq.ticks = m.pollNmi.ticks := by
    unfold pollCartridgeIrq
    split
    · split <;> rfl
    · rfl
  have sound : m.poll.ticks = m.pollNmi.pollCartridgeIrq.ticks := by
    unfold poll pollSoundIrq
    split <;> rfl
  rw [sound, irq, nmi]

/-- A poll may change the picture unit and the cartridge, and may run an interrupt handler. -/
inductive IsPoll (m : Machine κ π δ) : List Happening → Machine κ π δ → Prop
  | quiet (picture : π) (cartridge : Option Cartridge) :
    IsPoll m [] (m.mapDevices fun d => { d with picture, cartridge })
  | interrupt (picture : π) (cartridge : Option Cartridge) (program : BusProgram κ)
    (handler : program = Processor.nmi m.processor ∨ program = Processor.irq m.processor) :
    IsPoll m
      ((m.mapDevices fun d => { d with picture, cartridge }).programLog .interrupt program)
      ((m.mapDevices fun d => { d with picture, cartridge }).runProcessor program)

theorem isPoll_nmi (m : Machine κ π δ) : m.IsPoll m.nmiLog m.pollNmi := by
  unfold nmiLog pollNmi
  dsimp only
  split
  · exact .interrupt _ m.devices.cartridge _ (.inl rfl)
  · exact .quiet _ m.devices.cartridge

theorem isPoll_cartridgeIrq (m : Machine κ π δ) :
    m.IsPoll m.cartridgeIrqLog m.pollCartridgeIrq := by
  unfold cartridgeIrqLog pollCartridgeIrq
  cases m.devices.cartridge with
  | none => exact .quiet m.devices.picture m.devices.cartridge
  | some c =>
    cases pending : c.irqPending with
    | true =>
      simp only [pending, if_true]
      exact .interrupt m.devices.picture _ _ (.inr rfl)
    | false =>
      simp only [pending, Bool.false_eq_true, if_false]
      exact .quiet m.devices.picture m.devices.cartridge

theorem isPoll_soundIrq (m : Machine κ π δ) : m.IsPoll m.soundIrqLog m.pollSoundIrq := by
  unfold soundIrqLog pollSoundIrq
  split
  · exact .interrupt m.devices.picture m.devices.cartridge _ (.inr rfl)
  · exact .quiet m.devices.picture m.devices.cartridge

end Machine

end Famicom
