import Famicom.Proofs.Console.Run

/-!
# The event log is only written

Nothing on the console looks at the event log. Whatever is done to a console with another log is
what is done to it with its own, and adds the same events. So what a tick logs can be told although
the log forgets its oldest events.

Only a run up to the end of a frame can trip its guard, so no tick logs that.

## Main definitions

* `logAfter` — a log to which events are added
* `Devices.withLog`, `Machine.withLog` — with another log
* `Machine.LogsQuietly` — what is done logs the same with any log, and no trip of the guard

## Main results

* `BusProgram.exists_run_withLog` — programs of the processor
* `Machine.exists_clock_withLog` — ticks
-/

namespace Famicom

/-- A log to which events are added, the first of them first. -/
def logAfter (log : EventLog) (events : List Event) : EventLog :=
  events.foldl BoundedQueue.push log

theorem logAfter_append (log : EventLog) (events more : List Event) :
    logAfter log (events ++ more) = logAfter (logAfter log events) more :=
  List.foldl_append

/-- None of the events says that the guard of a frame tripped. -/
def Untripped (events : List Event) : Prop :=
  ∀ guard, Event.frameGuardTripped guard ∉ events

theorem Untripped.nil : Untripped [] :=
  fun _ => List.not_mem_nil

theorem Untripped.append {events more : List Event} (h : Untripped events) (h' : Untripped more) :
    Untripped (events ++ more) := by
  intro guard member
  rcases List.mem_append.mp member with first | second
  · exact h guard first
  · exact h' guard second

variable {κ π δ : Type}

/-! ### The bus -/

namespace Devices

/-- The devices with another log. -/
def withLog (d : Devices π δ) (log : EventLog) : Devices π δ :=
  { d with log }

variable [PictureUnit π] (d : Devices π δ)

theorem read_withLog (log : EventLog) (address : UInt16) (peek : Bool) :
    (d.withLog log).read address peek =
      ((d.read address peek).1, (d.read address peek).2.withLog log) := by
  have picture (register : UInt16) : (d.withLog log).readPicture register peek =
      ((d.readPicture register peek).1, (d.readPicture register peek).2.withLog log) := by
    obtain ⟨_, _, _, cartridge, _, _, _, _, _, _⟩ := d
    cases cartridge <;> rfl
  have same : (d.withLog log).cartridgeRead address = d.cartridgeRead address := rfl
  unfold read
  rw [same]
  cases d.cartridgeRead address with
  | some byte => rfl
  | none =>
    unfold readConsole
    dsimp only
    split
    · rfl
    · split
      · exact picture _
      · split <;> rfl

/-- A write that reaches the copier of sprite pages logs its start, and no other write logs. -/
theorem exists_writeConsole_withLog (address : UInt16) (data : UInt8) :
    ∃ events, Untripped events ∧ ∀ log, (d.withLog log).writeConsole address data =
      (d.writeConsole address data).withLog (logAfter log events) := by
  have picture (log : EventLog) (register : UInt16) : (d.withLog log).writePicture register data =
      (d.writePicture register data).withLog log := by
    obtain ⟨_, _, _, cartridge, _, _, _, _, _, _⟩ := d
    cases cartridge <;> rfl
  have started (log : EventLog) : (d.withLog log).startSpriteDma data =
      (d.startSpriteDma data).withLog
        (logAfter log [.spriteDmaStarted data (d.read 0x2003 false).1]) := by
    rw [startSpriteDma, read_withLog]
    rfl
  unfold writeConsole
  split
  · exact ⟨[], .nil, fun _ => rfl⟩
  · split
    · exact ⟨[], .nil, fun log => picture log _⟩
    · split
      · exact ⟨_, by simp [Untripped], started⟩
      · split
        · exact ⟨[], .nil, fun _ => rfl⟩
        · split <;> exact ⟨[], .nil, fun _ => rfl⟩

variable [FileStore δ]

theorem exists_write_withLog (address : UInt16) (data : UInt8) :
    ∃ events, Untripped events ∧ ∀ log, (d.withLog log).write address data =
      (d.write address data).withLog (logAfter log events) := by
  have offered (log : EventLog) : (d.withLog log).cartridgeWrite address data =
      ((d.cartridgeWrite address data).1, (d.cartridgeWrite address data).2.withLog log) := by
    obtain ⟨_, _, _, cartridge, _, _, _, _, _, _⟩ := d
    cases cartridge <;> rfl
  simp only [write, offered]
  rcases d.cartridgeWrite address data with ⟨_ | _, d'⟩
  · exact d'.exists_writeConsole_withLog address data
  · exact ⟨[], .nil, fun _ => rfl⟩

/-- The copier logs when it is done. -/
theorem exists_stepSpriteDma_withLog (tick : UInt64) :
    ∃ events, Untripped events ∧ ∀ log, (d.withLog log).stepSpriteDma tick =
      (d.stepSpriteDma tick).withLog (logAfter log events) := by
  have copier (log : EventLog) : (d.withLog log).dma = d.dma := rfl
  simp only [stepSpriteDma, copier]
  cases d.dma with
  | idle => exact ⟨[], .nil, fun _ => rfl⟩
  | aligning page address =>
    dsimp only
    split <;> exact ⟨[], .nil, fun _ => rfl⟩
  | copying page address start data =>
    dsimp only
    simp only [read_withLog]
    split
    · exact ⟨[], .nil, fun _ => rfl⟩
    · obtain ⟨events, untripped, written⟩ := d.exists_write_withLog 0x2004 data
      simp only [written]
      split
      · refine ⟨events ++ [.spriteDmaCompleted page], untripped.append (by simp [Untripped]), ?_⟩
        intro log
        rw [logAfter_append]
        rfl
      · exact ⟨events, untripped, fun _ => rfl⟩

end Devices

/-- A program of the processor does the same with any log. -/
theorem BusProgram.exists_run_withLog [PictureUnit π] [FileStore δ] {α : Type}
    (program : BusProgram α) (d : Devices π δ) :
    ∃ events, Untripped events ∧ ∀ log, program.run (d.withLog log) =
      ((program.run d).1, (program.run d).2.withLog (logAfter log events)) := by
  induction program generalizing d with
  | done a => exact ⟨[], .nil, fun _ => rfl⟩
  | read address peek next ih =>
    obtain ⟨events, untripped, ran⟩ := ih (d.read address peek).1 (d.read address peek).2
    refine ⟨events, untripped, fun log => ?_⟩
    rw [run, run, d.read_withLog]
    exact ran log
  | write address data next ih =>
    obtain ⟨first, quiet, written⟩ := d.exists_write_withLog address data
    obtain ⟨rest, quiet', ran⟩ := ih (d.write address data)
    refine ⟨first ++ rest, quiet.append quiet', fun log => ?_⟩
    rw [run, run, written, logAfter_append]
    exact ran _

/-! ### Ticks -/

namespace Machine

/-- The console with another log. -/
def withLog (m : Machine κ π δ) (log : EventLog) : Machine κ π δ :=
  m.mapDevices (·.withLog log)

/-- What is done to a console is done with any log, to which it adds the same events. None of them
says that the guard of a frame tripped. -/
def LogsQuietly (f : Machine κ π δ → Machine κ π δ) (m : Machine κ π δ) : Prop :=
  ∃ events, Untripped events ∧ ∀ log, f (m.withLog log) = (f m).withLog (logAfter log events)

section Phases

variable {f g : Machine κ π δ → Machine κ π δ} {m : Machine κ π δ}

theorem LogsQuietly.comp (second : LogsQuietly g (f m)) (first : LogsQuietly f m) :
    LogsQuietly (fun m => g (f m)) m := by
  obtain ⟨events, untripped, ran⟩ := first
  obtain ⟨more, untripped', ran'⟩ := second
  refine ⟨events ++ more, untripped.append untripped', fun log => ?_⟩
  dsimp only
  rw [ran, ran', logAfter_append]

theorem sampleAudio_withLog (m : Machine κ π δ) (log : EventLog) :
    (m.withLog log).sampleAudio = (m.sampleAudio.1, m.sampleAudio.2.withLog log) := by
  have period : (m.withLog log).samplePeriod = m.samplePeriod := rfl
  have time : (m.withLog log).audioTime = m.audioTime := rfl
  unfold sampleAudio
  rw [period, time]
  dsimp only
  split <;> rfl

variable [PictureUnit π]

theorem clockPicture_withLog (m : Machine κ π δ) (log : EventLog) :
    (m.withLog log).clockPicture = m.clockPicture.withLog log := by
  obtain ⟨_, ⟨_, _, _, cartridge, _, _, _, _, _, _⟩, _, _, _, _⟩ := m
  cases cartridge <;> rfl

omit [PictureUnit π] in
theorem clockSound_withLog (m : Machine κ π δ) (log : EventLog) :
    (m.withLog log).clockSound = (·.withLog log) <$> m.clockSound := by
  have same : (m.withLog log).devices.sound = m.devices.sound := rfl
  rw [clockSound, clockSound, same]
  cases m.devices.sound.clock <;> rfl

variable [FileStore δ]

theorem exists_runProcessor_withLog (m : Machine κ π δ) (program : BusProgram κ) :
    ∃ events, Untripped events ∧ ∀ log, (m.withLog log).runProcessor program =
      (m.runProcessor program).withLog (logAfter log events) := by
  obtain ⟨events, untripped, ran⟩ := program.exists_run_withLog m.devices
  refine ⟨events, untripped, fun log => ?_⟩
  have devices : (m.withLog log).devices = m.devices.withLog log := rfl
  rw [runProcessor, devices, ran]
  rfl

variable [Processor κ]

theorem logsQuietly_useSlot (m : Machine κ π δ) : LogsQuietly useSlot m := by
  have used (log : EventLog) : (m.withLog log).devices.slotUse m.ticks =
      m.devices.slotUse m.ticks := by
    have devices : (m.withLog log).devices = m.devices.withLog log := rfl
    rw [devices]
    unfold Devices.slotUse Devices.copierAccess?
    simp only [Devices.read_withLog]
    rfl
  have turn (log : EventLog) : (m.withLog log).ticks = m.ticks := rfl
  unfold LogsQuietly
  simp only [useSlot_eq, turn, used]
  cases m.devices.slotUse m.ticks with
  | copier access =>
    obtain ⟨events, untripped, stepped⟩ := m.devices.exists_stepSpriteDma_withLog m.ticks
    exact ⟨events, untripped, fun log => congrArg (fun d => { m with devices := d }) (stepped log)⟩
  | fetch address byte =>
    refine ⟨[], .nil, fun log => ?_⟩
    have devices : (m.withLog log).devices = m.devices.withLog log := rfl
    simp only [mapDevices, devices, Devices.read_withLog]
    rfl
  | stall => exact ⟨[], .nil, fun _ => rfl⟩
  | processor =>
    exact m.countInstructions.exists_runProcessor_withLog (Processor.clock m.processor)

theorem logsQuietly_slot (m : Machine κ π δ) : LogsQuietly slot m := by
  have turn (log : EventLog) : (m.withLog log).ticks = m.ticks := rfl
  unfold LogsQuietly slot
  simp only [turn]
  split
  · exact m.logsQuietly_useSlot
  · exact ⟨[], .nil, fun _ => rfl⟩

theorem logsQuietly_pollNmi (m : Machine κ π δ) : LogsQuietly pollNmi m := by
  have polled (log : EventLog) : PictureUnit.pollNmi (m.withLog log).devices.picture =
    PictureUnit.pollNmi m.devices.picture := rfl
  unfold LogsQuietly pollNmi
  simp only [polled]
  rcases PictureUnit.pollNmi m.devices.picture with ⟨_ | _, picture⟩
  · exact ⟨[], .nil, fun _ => rfl⟩
  · exact exists_runProcessor_withLog (m.mapDevices fun d => { d with picture })
      (Processor.nmi m.processor)

theorem logsQuietly_pollCartridgeIrq (m : Machine κ π δ) : LogsQuietly pollCartridgeIrq m := by
  have same (log : EventLog) : (m.withLog log).devices.cartridge = m.devices.cartridge := rfl
  unfold LogsQuietly pollCartridgeIrq
  simp only [same]
  cases m.devices.cartridge with
  | none => exact ⟨[], .nil, fun _ => rfl⟩
  | some c =>
    dsimp only
    split
    · exact exists_runProcessor_withLog
        (m.mapDevices fun d => { d with cartridge := some c.clearIrq }) (Processor.irq m.processor)
    · exact ⟨[], .nil, fun _ => rfl⟩

theorem logsQuietly_pollSoundIrq (m : Machine κ π δ) : LogsQuietly pollSoundIrq m := by
  have same (log : EventLog) : (m.withLog log).devices.sound.irqPending =
    m.devices.sound.irqPending := rfl
  unfold LogsQuietly pollSoundIrq
  simp only [same]
  split
  · exact m.exists_runProcessor_withLog (Processor.irq m.processor)
  · exact ⟨[], .nil, fun _ => rfl⟩

theorem logsQuietly_poll (m : Machine κ π δ) : LogsQuietly poll m :=
  (logsQuietly_pollSoundIrq _).comp <|
    (logsQuietly_pollCartridgeIrq m.pollNmi).comp (logsQuietly_pollNmi m)

/-- A tick does the same with any log. -/
theorem exists_clock_withLog (m : Machine κ π δ) :
    ∃ events, Untripped events ∧ ∀ log, (m.withLog log).clock =
      (fun ticked => (ticked.1, ticked.2.withLog (logAfter log events))) <$> m.clock := by
  have early (log : EventLog) : (m.withLog log).clockPicture.clockSound =
      (·.withLog log) <$> m.clockPicture.clockSound := by
    rw [clockPicture_withLog, clockSound_withLog]
  simp only [clock_eq, early]
  cases m.clockPicture.clockSound with
  | error fault => exact ⟨[], .nil, fun _ => rfl⟩
  | ok late =>
    obtain ⟨first, quiet, slotted⟩ := late.logsQuietly_slot
    obtain ⟨rest, quiet', polled⟩ := late.slot.sampleAudio.2.logsQuietly_poll
    refine ⟨first ++ rest, quiet.append quiet', fun log => ?_⟩
    change Except.ok _ = Except.ok _
    rw [slotted, sampleAudio_withLog, polled, logAfter_append]
    rfl

end Phases

end Machine

end Famicom
