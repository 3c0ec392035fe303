import Famicom.Bench.RegisterPicture
import Famicom.Bench.ScriptedProcessor
import Famicom.Proofs.Audio.Listening
import Famicom.Proofs.Console.Trace
import Famicom.Storage.Disk

/-!
# Listening goes unnoticed

The console keeps some of its state for whoever listens to it: the rate of samples, the switches of
the voices, the taps with their room, and the time up to the next sample. Nothing else depends on
it. A console is compared with itself under another listener: every operation shows the same of
both, and they come out alike but for their listeners again. It follows for runs in which the
listeners ask for different things at different times.

The exception is a reset. It makes new taps, and it is refused if the listener wants more room than
a new tap can have. It shows the same even then, but the run does not go on.

## Main definitions

* `Machine.Listener`, `Machine.heardBy` — what is kept for a listener, and the console with another
* `Machine.SameOutcome` — two consoles come out alike but for their listeners
* `Machine.Operation.Unheard` — an operation in which the listener has no part
* `Machine.Request`, `Machine.listen` — what a listener asks for, and what it does to the console
* `Machine.Step`, `Machine.trace` — a run with a listener, and all that can be seen in it

## Main results

* `Machine.sights_heardBy` — an operation shows the same whoever listens
* `Machine.sameOutcome_apply` — it does the same, unless a reset is refused
* `Machine.listening_unnoticed` — neither runs nor their levels depend on the listener
-/

namespace Famicom

open Audio

/-! ### The listener -/

/-- What the console keeps for its listener. -/
structure Machine.Listener extends Audio.Listener where
  sampleRate : UInt32
  waveformCapacity : UInt64
  channels : PerChannel Bool
  audioTime : Float
  audioSample : Float32

variable {κ π δ : Type}

/-- The devices with another listener. -/
def Devices.heardBy (d : Devices π δ) (l : Audio.Listener) : Devices π δ :=
  { d with sound := d.sound.heardBy l }

/-- The console with another listener. -/
def Machine.heardBy (m : Machine κ π δ) (l : Machine.Listener) : Machine κ π δ :=
  { m with
    devices := m.devices.heardBy l.toListener
    settings := { m.settings with
      sampleRate := l.sampleRate
      waveformCapacity := l.waveformCapacity
      channels := l.channels }
    audioTime := l.audioTime
    audioSample := l.audioSample }

/-- Settings with others for the listener. -/
def Settings.forListener (settings : Settings) (rate : UInt32) (capacity : UInt64)
    (channels : PerChannel Bool) : Settings :=
  { settings with sampleRate := rate, waveformCapacity := capacity, channels }

namespace Machine

/-- The listener of the console. -/
def listener (m : Machine κ π δ) : Listener :=
  ⟨⟨m.devices.sound.switches, m.devices.sound.taps⟩, m.settings.sampleRate,
    m.settings.waveformCapacity, m.settings.channels, m.audioTime, m.audioSample⟩

@[simp] theorem heardBy_listener (m : Machine κ π δ) : m.heardBy m.listener = m :=
  rfl

@[simp] theorem heardBy_heardBy (m : Machine κ π δ) (l l' : Listener) :
    (m.heardBy l).heardBy l' = m.heardBy l' :=
  rfl

theorem devices_heardBy (m : Machine κ π δ) (l : Listener) :
    (m.heardBy l).devices = m.devices.heardBy l.toListener :=
  rfl

end Machine

/-! ### The bus -/

namespace Devices

variable [PictureUnit π] (d : Devices π δ) (l : Audio.Listener)

theorem read_heardBy (address : UInt16) (peek : Bool) :
    (d.heardBy l).read address peek =
      ((d.read address peek).1, (d.read address peek).2.heardBy l) := by
  have picture (register : UInt16) : (d.heardBy l).readPicture register peek =
      ((d.readPicture register peek).1, (d.readPicture register peek).2.heardBy l) := by
    obtain ⟨_, _, _, cartridge, _, _, _, _, _, _⟩ := d
    cases cartridge <;> rfl
  -- The status of the sound unit tells of notes and samples, and not of switches.
  have same : (d.heardBy l).cartridgeRead address = d.cartridgeRead address := rfl
  unfold read
  rw [same]
  cases d.cartridgeRead address with
  | some byte => rfl
  | none =>
    unfold readConsole
    dsimp only
    split
    · rfl
    · split
      · exact picture _
      · split <;> rfl

theorem patternsOf_heardBy (access : BusAccess) :
    (d.heardBy l).patternsOf access = d.patternsOf access := by
  cases access <;> rfl

theorem writeAccess_heardBy (address : UInt16) (data : UInt8) :
    (d.heardBy l).writeAccess address data = d.writeAccess address data := by
  rw [writeAccess, writeAccess, read_heardBy]

theorem writeConsole_heardBy (address : UInt16) (data : UInt8) :
    (d.heardBy l).writeConsole address data = (d.writeConsole address data).heardBy l := by
  have picture (register : UInt16) : (d.heardBy l).writePicture register data =
      (d.writePicture register data).heardBy l := by
    obtain ⟨_, _, _, cartridge, _, _, _, _, _, _⟩ := d
    cases cartridge <;> rfl
  have copier : (d.heardBy l).startSpriteDma data = (d.startSpriteDma data).heardBy l := by
    rw [startSpriteDma, read_heardBy]
    rfl
  have sound := d.sound.write_heardBy l address data
  unfold writeConsole
  split
  · rfl
  · split
    · exact picture _
    · split
      · exact copier
      · split
        · rfl
        · split
          · exact congrArg (fun sound => { d with sound }) sound
          · rfl

variable [FileStore δ]

theorem write_heardBy (address : UInt16) (data : UInt8) :
    (d.heardBy l).write address data = (d.write address data).heardBy l := by
  have offered : (d.heardBy l).cartridgeWrite address data =
      ((d.cartridgeWrite address data).1, (d.cartridgeWrite address data).2.heardBy l) := by
    obtain ⟨_, _, _, cartridge, _, _, _, _, _, _⟩ := d
    cases cartridge <;> rfl
  rw [write, write, offered]
  rcases d.cartridgeWrite address data with ⟨_ | _, d'⟩
  · exact d'.writeConsole_heardBy l address data
  · rfl

theorem perform_heardBy (access : BusAccess) :
    (d.heardBy l).perform access = (d.perform access).heardBy l := by
  cases access with
  | read address peek _ => exact congrArg Prod.snd (d.read_heardBy l address peek)
  | write address data => exact d.write_heardBy l address data
  | startCopy page _ => exact d.write_heardBy l copierRegister page

theorem sightsAlong_heardBy (origin : Origin) (accesses : List BusAccess) :
    sightsAlong origin accesses (d.heardBy l) = sightsAlong origin accesses d := by
  induction accesses generalizing d with
  | nil => rfl
  | cons access accesses ih =>
    rw [sightsAlong, sightsAlong, perform_heardBy, patternsOf_heardBy, ih]

theorem stepSpriteDma_heardBy (tick : UInt64) :
    (d.heardBy l).stepSpriteDma tick = (d.stepSpriteDma tick).heardBy l := by
  have copier : (d.heardBy l).dma = d.dma := rfl
  unfold stepSpriteDma
  rw [copier]
  cases d.dma with
  | idle => rfl
  | aligning page address =>
    dsimp only
    split <;> rfl
  | copying page address start data =>
    dsimp only
    rw [read_heardBy, write_heardBy]
    split
    · rfl
    · split <;> rfl

end Devices

section Programs

variable [PictureUnit π] [FileStore δ] {α : Type} (program : BusProgram α) (d : Devices π δ)
  (l : Audio.Listener)

theorem BusProgram.run_heardBy :
    program.run (d.heardBy l) = ((program.run d).1, (program.run d).2.heardBy l) := by
  induction program generalizing d with
  | done a => rfl
  | read address peek next ih =>
    rw [run, run, d.read_heardBy l]
    exact ih _ _
  | write address data next ih =>
    rw [run, run, d.write_heardBy l]
    exact ih _

theorem BusProgram.accesses_heardBy : program.accesses (d.heardBy l) = program.accesses d := by
  induction program generalizing d with
  | done a => rfl
  | read address peek next ih => rw [accesses, accesses, d.read_heardBy l, ih]
  | write address data next ih =>
    rw [accesses, accesses, d.write_heardBy l, d.writeAccess_heardBy l, ih]

end Programs

namespace Machine

variable [PictureUnit π] [FileStore δ] (m : Machine κ π δ) (l : Listener)

/-! ### Ticks -/

omit [PictureUnit π] [FileStore δ] in
/-- What changes devices but not what they keep for the listener. -/
theorem mapDevices_heardBy {f : Devices π δ → Devices π δ}
    (h : ∀ d l, f (d.heardBy l) = (f d).heardBy l) :
    (m.heardBy l).mapDevices f = (m.mapDevices f).heardBy l := by
  rw [mapDevices, devices_heardBy, h]
  rfl

theorem runProcessor_heardBy (program : BusProgram κ) :
    (m.heardBy l).runProcessor program = (m.runProcessor program).heardBy l := by
  rw [runProcessor, devices_heardBy, program.run_heardBy]
  rfl

theorem programSights_heardBy (origin : Origin) (program : BusProgram κ) :
    (m.heardBy l).programSights origin program = m.programSights origin program := by
  rw [programSights, devices_heardBy, program.accesses_heardBy, Devices.sightsAlong_heardBy]
  rfl

omit [FileStore δ] in
theorem clockPicture_heardBy : (m.heardBy l).clockPicture = m.clockPicture.heardBy l := by
  obtain ⟨_, ⟨_, _, _, cartridge, _, _, _, _, _, _⟩, _, _, _, _⟩ := m
  cases cartridge <;> rfl

omit [PictureUnit π] [FileStore δ] in
theorem clockSound_heardBy : (m.heardBy l).clockSound = (·.heardBy l) <$> m.clockSound := by
  have clocked : (m.heardBy l).devices.sound.clock = (·.heardBy l.toListener) <$>
      m.devices.sound.clock :=
    Synthesizer.unheard_clock m.devices.sound l.toListener
  rw [clockSound, clockSound, clocked]
  cases m.devices.sound.clock <;> rfl

omit [FileStore δ] in
theorem slotUse_heardBy : (m.heardBy l).devices.slotUse m.ticks = m.devices.slotUse m.ticks := by
  rw [devices_heardBy]
  unfold Devices.slotUse Devices.copierAccess?
  simp only [Devices.read_heardBy]
  rfl

variable [Processor κ]

theorem slot_heardBy : (m.heardBy l).slot = m.slot.heardBy l := by
  have turn : (m.heardBy l).ticks = m.ticks := rfl
  have used : (m.heardBy l).useSlot = m.useSlot.heardBy l := by
    rw [useSlot_eq, useSlot_eq, turn, slotUse_heardBy]
    cases m.devices.slotUse m.ticks with
    | copier access =>
      exact m.mapDevices_heardBy l fun d l => d.stepSpriteDma_heardBy l m.ticks
    | fetch address byte =>
      refine m.mapDevices_heardBy l fun d l => ?_
      rw [d.read_heardBy l]
      rfl
    | stall => rfl
    | processor => exact m.countInstructions.runProcessor_heardBy l _
  unfold slot
  rw [turn, used]
  split <;> rfl

theorem slotSights_heardBy : (m.heardBy l).slotSights = m.slotSights := by
  have turn : (m.heardBy l).ticks = m.ticks := rfl
  rw [slotSights, slotSights, turn, slotUse_heardBy]
  cases m.devices.slotUse m.ticks with
  | copier access => cases access <;> rfl
  | fetch address byte => rfl
  | stall => rfl
  | processor => exact congrArg _ (m.countInstructions.programSights_heardBy l _ _)

theorem pollNmi_heardBy : (m.heardBy l).pollNmi = m.pollNmi.heardBy l := by
  have polled : PictureUnit.pollNmi (m.heardBy l).devices.picture =
    PictureUnit.pollNmi m.devices.picture := rfl
  unfold pollNmi
  rw [polled]
  rcases PictureUnit.pollNmi m.devices.picture with ⟨_ | _, picture⟩
  · rfl
  · exact runProcessor_heardBy (m.mapDevices fun d => { d with picture }) l _

theorem pollCartridgeIrq_heardBy :
    (m.heardBy l).pollCartridgeIrq = m.pollCartridgeIrq.heardBy l := by
  have same : (m.heardBy l).devices.cartridge = m.devices.cartridge := rfl
  unfold pollCartridgeIrq
  rw [same]
  cases m.devices.cartridge with
  | none => rfl
  | some c =>
    dsimp only
    split
    · exact runProcessor_heardBy (m.mapDevices fun d => { d with cartridge := some c.clearIrq }) l _
    · rfl

theorem pollSoundIrq_heardBy : (m.heardBy l).pollSoundIrq = m.pollSoundIrq.heardBy l := by
  have same : (m.heardBy l).devices.sound.irqPending = m.devices.sound.irqPending := rfl
  unfold pollSoundIrq
  rw [same]
  split
  · exact runProcessor_heardBy m l _
  · rfl

theorem poll_heardBy : (m.heardBy l).poll = m.poll.heardBy l := by
  rw [poll, pollNmi_heardBy, pollCartridgeIrq_heardBy, pollSoundIrq_heardBy]
  rfl

theorem pollSights_heardBy : (m.heardBy l).pollSights = m.pollSights := by
  have nmi (m : Machine κ π δ) : (m.heardBy l).nmiSights = m.nmiSights := by
    have polled : PictureUnit.pollNmi (m.heardBy l).devices.picture =
      PictureUnit.pollNmi m.devices.picture := rfl
    unfold nmiSights
    rw [polled]
    rcases PictureUnit.pollNmi m.devices.picture with ⟨_ | _, picture⟩
    · rfl
    · exact congrArg _
        (programSights_heardBy (m.mapDevices fun d => { d with picture }) l .interrupt _)
  have cartridge (m : Machine κ π δ) : (m.heardBy l).cartridgeIrqSights = m.cartridgeIrqSights := by
    have same : (m.heardBy l).devices.cartridge = m.devices.cartridge := rfl
    unfold cartridgeIrqSights
    rw [same]
    cases m.devices.cartridge with
    | none => rfl
    | some c =>
      dsimp only
      split
      · exact congrArg _ (programSights_heardBy
          (m.mapDevices fun d => { d with cartridge := some c.clearIrq }) l .interrupt _)
      · rfl
  have sound (m : Machine κ π δ) : (m.heardBy l).soundIrqSights = m.soundIrqSights := by
    have same : (m.heardBy l).devices.sound.irqPending = m.devices.sound.irqPending := rfl
    unfold soundIrqSights
    rw [same]
    split
    · exact congrArg _ (programSights_heardBy m l .interrupt _)
    · rfl
  rw [pollSights, nmi, pollNmi_heardBy, cartridge, pollCartridgeIrq_heardBy, sound]
  rfl

omit [PictureUnit π] [FileStore δ] [Processor κ] in
/-- Taking a sample is the listener's affair. -/
theorem exists_sampleAudio_heardBy : ∃ l, m.sampleAudio.2 = m.heardBy l := by
  obtain ⟨taps, audioTime, audioSample, sampled⟩ := m.exists_sampleAudio
  exact ⟨⟨⟨m.devices.sound.switches, taps⟩, m.settings.sampleRate, m.settings.waveformCapacity,
    m.settings.channels, audioTime, audioSample⟩, sampled⟩

theorem clockSights_heardBy : (m.heardBy l).clockSights = m.clockSights := by
  have picture : (m.heardBy l).pictureSights = m.pictureSights := rfl
  unfold clockSights
  rw [picture, clockPicture_heardBy, clockSound_heardBy]
  cases m.clockPicture.clockSound with
  | error fault => rfl
  | ok m =>
    -- A sample that only one of the two takes comes between the slot and the polls.
    change _ ++ ((if m.ticks % 3 = 0 then (m.heardBy l).slotSights else []) ++
      (m.heardBy l).slot.sampleAudio.2.pollSights) = _
    obtain ⟨mine, sampled⟩ := m.slot.exists_sampleAudio_heardBy
    obtain ⟨other, sampled'⟩ := (m.heardBy l).slot.exists_sampleAudio_heardBy
    rw [sampled', slot_heardBy, heardBy_heardBy, slotSights_heardBy]
    dsimp only
    rw [sampled]
    simp only [pollSights_heardBy]

/-! ### Operations -/

/-- Two consoles that differ in the listener at most come out so. -/
inductive SameOutcome : Except Fault (Machine κ π δ) → Except Fault (Machine κ π δ) → Prop
  | ok (m : Machine κ π δ) (l : Listener) : SameOutcome (.ok m) (.ok (m.heardBy l))
  | error (fault : Fault) : SameOutcome (.error fault) (.error fault)

/-- An operation in which the listener has no part. -/
def Operation.Unheard : Operation κ π δ → Prop
  | .setSampleRate _ => False
  | .mapSound f => Synthesizer.Unheard f
  | _ => True

theorem sameOutcome_clock : SameOutcome (m.apply .clock) ((m.heardBy l).apply .clock) := by
  have phases (m : Machine κ π δ) : m.apply .clock = (fun late : Machine κ π δ =>
      { late.slot.sampleAudio.2.poll with ticks := late.slot.sampleAudio.2.poll.ticks + 1 }) <$>
        m.clockPicture.clockSound := by
    rw [apply, clock_eq]
    cases m.clockPicture.clockSound <;> rfl
  rw [phases, phases, clockPicture_heardBy, clockSound_heardBy]
  cases m.clockPicture.clockSound with
  | error fault => exact .error fault
  | ok late =>
    -- One may take a sample and the other not, which makes a difference to listeners only.
    obtain ⟨mine, sampled⟩ := late.slot.exists_sampleAudio_heardBy
    obtain ⟨other, sampled'⟩ := (late.heardBy l).slot.exists_sampleAudio_heardBy
    rw [slot_heardBy, heardBy_heardBy] at sampled'
    have polled : late.slot.sampleAudio.2.poll = late.slot.poll.heardBy mine := by
      rw [sampled, poll_heardBy]
    have polled' : (late.heardBy l).slot.sampleAudio.2.poll = late.slot.poll.heardBy other := by
      rw [slot_heardBy, sampled', poll_heardBy]
    have outcome := SameOutcome.ok
      { late.slot.poll.heardBy mine with ticks := (late.slot.poll.heardBy mine).ticks + 1 } other
    simp only [Functor.map, Except.map, polled, polled']
    exact outcome

/-- The console in a reset, after the processor. -/
def resetProcessor : Machine κ π δ :=
  m.resetCartridge.runProcessor (Processor.reset m.processor)

omit [FileStore δ] [Processor κ] in
/-- The console in a reset, once there is a new sound unit. -/
def finishReset (sound : Synthesizer) : Machine κ π δ :=
  { m.mapDevices fun d =>
      { d with sound, picture := PictureUnit.reset d.picture, dma := .idle, stall := 0 }.record
        .reset with
    ticks := 0
    audioTime := 0.0 }

/-- The listener may want more room than a new tap can have, and nothing else refuses a reset. -/
theorem reset_eq : m.reset =
    if m.resetProcessor.devices.sound.HasRoom then
      .ok (m.resetProcessor.finishReset
        { switches := m.resetProcessor.devices.sound.switches
          taps := m.resetProcessor.devices.sound.taps.map (·.clear) })
    else .error .capacityOverflow := by
  have phases : m.reset = m.resetProcessor.devices.sound.reset >>= fun sound =>
      .ok (m.resetProcessor.finishReset sound) :=
    rfl
  rw [phases]
  split
  · rename_i room
    rw [Synthesizer.reset_of_hasRoom room]
    rfl
  · rename_i full
    rw [Synthesizer.reset_of_not_hasRoom full]
    rfl

theorem sameOutcome_reset (fits : m.reset ≠ .error .capacityOverflow)
    (fits' : (m.heardBy l).reset ≠ .error .capacityOverflow) :
    SameOutcome m.reset (m.heardBy l).reset := by
  rw [reset_eq] at fits fits' ⊢
  rw [reset_eq]
  have programmed : (m.heardBy l).resetProcessor = m.resetProcessor.heardBy l :=
    m.resetCartridge.runProcessor_heardBy l _
  rw [programmed] at fits' ⊢
  -- Neither is refused, so the new units differ in switches and taps at most.
  split_ifs at fits fits' ⊢
  · exact .ok _ { l with taps := l.taps.map (·.clear), audioTime := 0.0 }
  · exact absurd rfl fits'
  · exact absurd rfl fits
  · exact absurd rfl fits

/-- An operation does the same whoever listens, unless it comes to a reset that is refused. -/
theorem sameOutcome_apply {op : Operation κ π δ} (unheard : op.Unheard)
    (fits : m.apply op ≠ .error .capacityOverflow)
    (fits' : (m.heardBy l).apply op ≠ .error .capacityOverflow) :
    SameOutcome (m.apply op) ((m.heardBy l).apply op) := by
  cases op with
  | clock => exact m.sameOutcome_clock l
  | reset => exact m.sameOutcome_reset l fits fits'
  | insert cartridge => exact .ok (m.insert cartridge) l
  | load path =>
    have known : Cartridge.openFile path (m.heardBy l).settings.saveDirectory
        (m.heardBy l).devices.store =
          Cartridge.openFile path m.settings.saveDirectory m.devices.store := rfl
    rw [apply_load] at fits fits' ⊢
    rw [apply_load]
    rw [known] at fits' ⊢
    cases opened : Cartridge.openFile path m.settings.saveDirectory m.devices.store with
    | error error => exact .ok m l
    | ok cartridge =>
      rw [opened] at fits fits'
      exact (m.insert cartridge).sameOutcome_reset l fits fits'
  | read address peek =>
    have read : ((m.heardBy l).read address peek).2 = (m.read address peek).2.heardBy l := by
      rw [Machine.read, devices_heardBy, Devices.read_heardBy]
      rfl
    rw [apply, apply, read]
    exact .ok _ l
  | write address data =>
    have written : (m.heardBy l).write address data = (m.write address data).heardBy l :=
      m.mapDevices_heardBy l fun d l => d.write_heardBy l address data
    rw [apply, apply, written]
    exact .ok _ l
  | press number buttons =>
    have pressed : (m.heardBy l).press number buttons = (m.press number buttons).heardBy l := by
      unfold press
      cases Player.ofNumber? number <;> rfl
    rw [apply, apply, pressed]
    exact .ok _ l
  | setSampleRate rate => exact absurd unheard id
  | mapProcessor f => exact .ok { m with processor := f m.processor } l
  | mapPicture f => exact .ok (m.mapDevices fun d => { d with picture := f d.picture }) l
  | mapSound f =>
    have changed : f (m.heardBy l).devices.sound = (·.heardBy l.toListener) <$> f m.devices.sound :=
      unheard m.devices.sound l.toListener
    rw [apply, apply, changed]
    cases f m.devices.sound with
    | error fault => exact .error fault
    | ok sound => exact .ok (m.mapDevices fun d => { d with sound }) l
  | mapCartridge f =>
    have same : (m.heardBy l).devices.cartridge = m.devices.cartridge := rfl
    unfold apply mapDevices
    dsimp only
    rw [same]
    cases m.devices.cartridge with
    | none => exact .ok m l
    | some c => exact .ok _ l

/-- An operation shows the same whoever listens, even when it is refused. -/
theorem sights_heardBy (op : Operation κ π δ) : (m.heardBy l).sights op = m.sights op := by
  have reset (m : Machine κ π δ) : (m.heardBy l).resetSights = m.resetSights :=
    congrArg (· ++ _) (m.resetCartridge.programSights_heardBy l .reset _)
  cases op with
  | clock => exact m.clockSights_heardBy l
  | reset => exact reset m
  | load path =>
    have known : Cartridge.openFile path (m.heardBy l).settings.saveDirectory
        (m.heardBy l).devices.store =
          Cartridge.openFile path m.settings.saveDirectory m.devices.store := rfl
    unfold sights
    dsimp only
    rw [known]
    cases Cartridge.openFile path m.settings.saveDirectory m.devices.store with
    | error error => rfl
    | ok cartridge => exact reset (m.insert cartridge)
  | read address peek =>
    unfold sights
    dsimp only
    rw [devices_heardBy, Devices.sightsAlong_heardBy, Devices.read_heardBy]
  | write address data =>
    unfold sights
    dsimp only
    rw [devices_heardBy, Devices.sightsAlong_heardBy, Devices.writeAccess_heardBy]
  | insert _ | press _ _ | setSampleRate _ | mapProcessor _ | mapPicture _ | mapSound _
  | mapCartridge _ => rfl

/-! ### Runs -/

/-- What a listener asks for. -/
inductive Request where
  | setSampleRate (rate : UInt32)
  | sample
  | drain (channel : Channel)
  | setTapCapacity (capacity : Nat)
  | setHeard (channel : Channel) (heard : Bool)
  | status
  | irqPending
  | fetchAddress
  deriving DecidableEq, Repr

omit [PictureUnit π] [FileStore δ] [Processor κ] in
/-- The console after a request. -/
def listen : Request → Machine κ π δ
  | .setSampleRate rate => m.setSampleRate rate
  | .sample => m.mapDevices fun d => { d with sound := d.sound.sample.2 }
  | .drain channel => m.mapDevices fun d => { d with sound := (d.sound.drain channel).2 }
  | .setTapCapacity capacity =>
    m.mapDevices fun d => { d with sound := d.sound.setTapCapacity capacity }
  | .setHeard channel heard =>
    m.mapDevices fun d => { d with sound := d.sound.setHeard channel heard }
  | .status | .irqPending | .fetchAddress => m

omit [PictureUnit π] [FileStore δ] [Processor κ] in
theorem exists_listen (request : Request) : ∃ l, m.listen request = m.heardBy l := by
  cases request <;> exact ⟨⟨⟨_, _⟩, _, _, _, _, _⟩, rfl⟩

/-- A step of a run: something is done to the console, or its listener asks for something. -/
inductive Step (κ π δ : Type) where
  | play (op : Operation κ π δ)
  | listen (request : Request)

/-- What a step does to the console. -/
def Step.played? : Step κ π δ → Option (Operation κ π δ)
  | .play op => some op
  | .listen _ => none

/-- The console after a step. -/
def step (m : Machine κ π δ) : Step κ π δ → Except Fault (Machine κ π δ)
  | .play op => m.apply op
  | .listen request => .ok (m.listen request)

/-- The scenes of a step. -/
def scenes (m : Machine κ π δ) : Step κ π δ → List Scene
  | .play op => [m.scene op]
  | .listen _ => []

/-- All that can be seen in a run. -/
abbrev trace (m : Machine κ π δ) (steps : List (Step κ π δ)) : List Scene :=
  runLog step scenes steps m

/-- Requests in a row are another listener. -/
theorem exists_listens {requests : List (Step κ π δ)}
    (asked : ∀ s ∈ requests, s.played? = none) :
    ∃ l, ∀ rest : List (Step κ π δ),
      (requests ++ rest).foldlM step m = rest.foldlM step (m.heardBy l) ∧
        m.trace (requests ++ rest) = (m.heardBy l).trace rest := by
  induction requests generalizing m with
  | nil =>
    refine ⟨m.listener, fun rest => ?_⟩
    rw [heardBy_listener]
    exact ⟨rfl, rfl⟩
  | cons first requests ih =>
    cases first with
    | play op => exact absurd (asked _ List.mem_cons_self) nofun
    | listen request =>
      obtain ⟨l, heard⟩ := m.exists_listen request
      obtain ⟨l', later⟩ := ih (m.heardBy l) fun s member => asked s (List.mem_cons_of_mem _ member)
      have stepped : m.step (.listen request) = .ok (m.heardBy l) := congrArg Except.ok heard
      refine ⟨l', fun rest => ⟨?_, ?_⟩⟩
      · rw [List.cons_append, List.foldlM_cons, stepped]
        exact (later rest).1
      · rw [List.cons_append, trace, runLog_cons_of_ok _ stepped]
        exact (later rest).2

/-- Runs that play the same operations show the same and come out alike, whatever is asked between
the operations. -/
theorem same_of_plays {ops : List (Operation κ π δ)} (unheard : ∀ op ∈ ops, op.Unheard)
    {steps steps' : List (Step κ π δ)} (played : steps.filterMap Step.played? = ops)
    (played' : steps'.filterMap Step.played? = ops) (m : Machine κ π δ) (l : Listener)
    (fits : steps.foldlM step m ≠ .error .capacityOverflow)
    (fits' : steps'.foldlM step (m.heardBy l) ≠ .error .capacityOverflow) :
    (m.heardBy l).trace steps' = m.trace steps ∧
      SameOutcome (steps.foldlM step m) (steps'.foldlM step (m.heardBy l)) := by
  -- On the operations that both play, with whatever either asks for in between.
  induction ops generalizing steps steps' m l with
  | nil =>
    obtain ⟨mine, run⟩ := m.exists_listens (List.filterMap_eq_nil_iff.mp played)
    obtain ⟨other, run'⟩ := (m.heardBy l).exists_listens (List.filterMap_eq_nil_iff.mp played')
    have done := run []
    have done' := run' []
    rw [List.append_nil] at done done'
    rw [done.1, done.2, done'.1, done'.2]
    exact ⟨rfl, .ok (m.heardBy mine) other⟩
  | cons op ops ih =>
    obtain ⟨asked, _ | _, rest, rfl, quiet, ⟨⟩, later⟩ := List.filterMap_eq_cons_iff.mp played
    obtain ⟨asked', _ | _, rest', rfl, quiet', ⟨⟩, later'⟩ := List.filterMap_eq_cons_iff.mp played'
    -- Both come to the operation with listeners of their own.
    obtain ⟨mine, run⟩ := m.exists_listens quiet
    obtain ⟨other, run'⟩ : ∃ other, ∀ rest : List (Step κ π δ),
        (asked' ++ rest).foldlM step (m.heardBy l) =
            rest.foldlM step ((m.heardBy mine).heardBy other) ∧
          (m.heardBy l).trace (asked' ++ rest) = ((m.heardBy mine).heardBy other).trace rest :=
      (m.heardBy l).exists_listens quiet'
    obtain ⟨ran, seen⟩ := run (.play op :: rest)
    obtain ⟨ran', seen'⟩ := run' (.play op :: rest')
    rw [ran, List.foldlM_cons] at fits
    rw [ran', List.foldlM_cons] at fits'
    rw [ran, ran', seen, seen', List.foldlM_cons, List.foldlM_cons, trace, trace, runLog, runLog]
    generalize m.heardBy mine = base at fits fits' ⊢
    have scene : (base.heardBy other).scene op = base.scene op :=
      congrArg (Scene.mk base.ticks) (base.sights_heardBy other op)
    have same := base.sameOutcome_apply other (unheard op List.mem_cons_self)
      (fun refused => fits (by rw [step, refused]; rfl))
      (fun refused => fits' (by rw [step, refused]; rfl))
    simp only [step, scenes, scene] at fits fits' ⊢
    generalize base.apply op = outcome at fits same ⊢
    generalize (base.heardBy other).apply op = outcome' at fits' same ⊢
    cases same with
    | error fault => exact ⟨rfl, .error fault⟩
    | ok m l =>
      obtain ⟨seen, ended⟩ := ih (fun op member => unheard op (List.mem_cons_of_mem _ member)) later
        later' m l fits fits'
      exact ⟨congrArg _ seen, ended⟩

omit [PictureUnit π] [FileStore δ] [Processor κ] in
/-- Settings for the listener make a difference to nobody else. -/
theorem exists_initial_heardBy {processor : κ} {picture : π} {store : δ} {settings : Settings}
    {rate : UInt32} {capacity : UInt64} {channels : PerChannel Bool} {start start' : Machine κ π δ}
    (made : initial processor picture store settings = .ok start)
    (made' : initial processor picture store (settings.forListener rate capacity channels) =
      .ok start') : ∃ l, start' = start.heardBy l := by
  -- The taps are made with different room, if both can be made.
  obtain ⟨sound, started, made⟩ := bind_eq_ok.mp made
  obtain ⟨sound', started', made'⟩ := bind_eq_ok.mp made'
  obtain ⟨tap, -, started⟩ := bind_eq_ok.mp started
  obtain ⟨tap', -, started'⟩ := bind_eq_ok.mp started'
  obtain rfl := Except.ok.inj started
  obtain rfl := Except.ok.inj started'
  obtain rfl := Except.ok.inj made
  obtain rfl := Except.ok.inj made'
  exact ⟨⟨⟨_, _⟩, _, _, _, _, _⟩, rfl⟩

/-- **Listening goes unnoticed.** Let two consoles be made alike but for the rate of samples, the
room in the taps and the voices that are heard, and let the same be done to both while their
listeners ask for what they like. Then the same can be seen of both in every tick, and both come out
alike but for what they keep for their listeners, with the same levels of all voices. It takes that
no reset is refused to either because its listener wants more room than a new tap can have. -/
theorem listening_unnoticed {processor : κ} {picture : π} {store : δ} {settings : Settings}
    {rate : UInt32} {capacity : UInt64} {channels : PerChannel Bool} {start start' : Machine κ π δ}
    (made : initial processor picture store settings = .ok start)
    (made' : initial processor picture store (settings.forListener rate capacity channels) =
      .ok start')
    {steps steps' : List (Step κ π δ)}
    (same : steps'.filterMap Step.played? = steps.filterMap Step.played?)
    (unheard : ∀ op ∈ steps.filterMap Step.played?, op.Unheard)
    (fits : steps.foldlM step start ≠ .error .capacityOverflow)
    (fits' : steps'.foldlM step start' ≠ .error .capacityOverflow) :
    start'.trace steps' = start.trace steps ∧
      SameOutcome (steps.foldlM step start) (steps'.foldlM step start') ∧
      ∀ m m', steps.foldlM step start = .ok m → steps'.foldlM step start' = .ok m' →
        m'.devices.sound.levels = m.devices.sound.levels := by
  obtain ⟨l, rfl⟩ := exists_initial_heardBy made made'
  obtain ⟨seen, ended⟩ := same_of_plays unheard rfl same start l fits fits'
  refine ⟨seen, ended, ?_⟩
  intro m m' run run'
  rw [run, run'] at ended
  cases ended
  rfl

/-- The sample player is switched on and fetches a byte, while a listener of one console is busy. -/
theorem listening_unnoticed_of_fetch :
    let plays : List (Step Bench.ScriptedProcessor Bench.RegisterPicture Disk) :=
      [.play .reset, .play (.write 0x4015 0x10), .play .clock]
    let busy : List (Step Bench.ScriptedProcessor Bench.RegisterPicture Disk) :=
      [.listen (.setTapCapacity 4), .play .reset, .listen .sample, .listen (.setHeard .dmc false),
        .play (.write 0x4015 0x10), .listen (.setSampleRate 6000000), .play .clock,
        .listen (.drain .noise)]
    ∃ start start' m m',
      initial {} {} {} {} = .ok start ∧
      initial {} {} {} (Settings.forListener {} 8000 16 (.uniform false)) = .ok start' ∧
      plays.foldlM step start = .ok m ∧ busy.foldlM step start' = .ok m' ∧
      start'.trace busy = start.trace plays ∧
      m'.devices.sound.levels = m.devices.sound.levels := by
  intro plays busy
  obtain ⟨start, made, m, run⟩ :
      ∃ start : Machine Bench.ScriptedProcessor Bench.RegisterPicture Disk,
        initial {} {} {} {} = .ok start ∧ ∃ m, plays.foldlM step start = .ok m :=
    ⟨_, rfl, _, rfl⟩
  obtain ⟨start', made', m', run'⟩ :
      ∃ start' : Machine Bench.ScriptedProcessor Bench.RegisterPicture Disk,
        initial {} {} {} (Settings.forListener {} 8000 16 (.uniform false)) = .ok start' ∧
          ∃ m', busy.foldlM step start' = .ok m' :=
    ⟨_, rfl, _, rfl⟩
  have same : busy.filterMap Step.played? = plays.filterMap Step.played? := rfl
  have unheard : ∀ op ∈ plays.filterMap Step.played?, op.Unheard := by
    simp [plays, Step.played?, Operation.Unheard]
  obtain ⟨seen, -, levels⟩ := listening_unnoticed made made' same unheard
    (by rw [run]; exact nofun) (by rw [run']; exact nofun)
  exact ⟨start, start', m, m', made, made', run, run', seen, levels m m' run run'⟩

/-- A listener who wants more room than a new tap can have is noticed in the next reset: it is
refused, and the read after it is not made. -/
theorem listening_noticed_in_reset :
    let plays : List (Step Bench.ScriptedProcessor Bench.RegisterPicture Disk) :=
      [.play .reset, .play (.read 0x0000 false)]
    let heard := .listen (.setTapCapacity 2305843009213693952) :: plays
    ∃ start, initial {} {} {} {} = .ok start ∧
      heard.filterMap Step.played? = plays.filterMap Step.played? ∧
      (∃ m, plays.foldlM step start = .ok m) ∧
      heard.foldlM step start = .error .capacityOverflow ∧
      start.trace heard ≠ start.trace plays := by
  intro plays heard
  -- The run that is cut short shows the reset only.
  obtain ⟨start, made, m, run, refused, few, all⟩ :
      ∃ start, initial {} {} {} {} = .ok start ∧ ∃ m, plays.foldlM step start = .ok m ∧
        heard.foldlM step start = .error .capacityOverflow ∧ (start.trace heard).length = 1 ∧
        (start.trace plays).length = 2 :=
    ⟨_, rfl, _, rfl, rfl, rfl, rfl⟩
  refine ⟨start, made, rfl, ⟨m, run⟩, refused, ?_⟩
  intro same
  rw [same, all] at few
  cases few

end Machine

end Famicom
