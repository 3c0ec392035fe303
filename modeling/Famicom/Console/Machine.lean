import Famicom.Settings.Basic
import Famicom.Console.Devices

/-!
# The console

The console joins a processor with the devices on its bus and clocks them at their rates. Every tick
is one of the picture unit; every third one is a slot of the processor, which the copier of sprite
pages and the sample player may take.

Audio is decimated, not resampled: each tick adds its own length to the time since the last sample,
and a sample is taken in the tick in which that time reaches the length of a sample, which is then
subtracted. The rest of the time stays, so the rate is right in the long run.

## Main definitions

* `Machine` — the console
* `Machine.initial` — the console at power-on
* `Machine.insert`, `Machine.load` — a cartridge is put in
* `LoadFailure` — why the cartridge of a file did not get to run
* `Machine.clock` — one tick
* `Machine.reset` — the reset button
* `Machine.nextSample`, `Machine.runFrame` — ticks up to the next audio sample or the end of a frame
-/

namespace Famicom

open Audio

/-- How many ticks the console makes in a second. -/
def systemRate : Float :=
  5369318.0

/-- The console. `κ` is the processor's state, `π` the picture unit's, `δ` the file system's. -/
structure Machine (κ π δ : Type) where
  processor : κ
  devices : Devices π δ
  settings : Settings
  /-- Ticks since power-on or reset. -/
  ticks : UInt64 := 0
  /-- Seconds since the last audio sample. -/
  audioTime : Float := 0.0
  /-- The last audio sample. -/
  audioSample : Float32 := 0.0

/-- Why the cartridge of an image file did not get to run. -/
inductive LoadFailure where
  /-- The file is of no use. -/
  | image (error : OpenError)
  /-- The reset that follows has no result. -/
  | reset (fault : Fault)

namespace Machine

variable {κ π δ : Type}

/-- Sets the rate of audio samples, at least one in a second. -/
def setSampleRate (m : Machine κ π δ) (rate : UInt32) : Machine κ π δ :=
  { m with settings := { m.settings with sampleRate := max rate 1 } }

/-- The console at power-on. -/
def initial (processor : κ) (picture : π) (store : δ) (settings : Settings) :
    Except Fault (Machine κ π δ) := do
  let sound := { ← Synthesizer.initial settings.waveformCapacity.toNat with
    switches := settings.channels }
  let m : Machine κ π δ := { processor, devices := { picture, sound, store }, settings }
  pure (m.setSampleRate settings.sampleRate)

/-- Changes the devices. -/
@[inline] def mapDevices (m : Machine κ π δ) (f : Devices π δ → Devices π δ) : Machine κ π δ :=
  { m with devices := f m.devices }

/-! ### Cartridges -/

/-- Puts a cartridge in. -/
def insert [PictureUnit π] (m : Machine κ π δ) (cartridge : Cartridge) : Machine κ π δ :=
  let c := cartridge.setGate m.settings.mmc1SerialGate
  m.mapDevices fun d =>
    { d with picture := PictureUnit.connect d.picture c, cartridge := some c }.record
      (.inserted c.board.name c.board.number)

/-- A cartridge is in. -/
def hasCartridge (m : Machine κ π δ) : Bool :=
  m.devices.cartridge.isSome

/-- The state of the cartridge's board as a line of text. -/
def describeBoard (m : Machine κ π δ) : String :=
  match m.devices.cartridge with
  | some c => c.board.describe
  | none => "No ROM loaded"

/-! ### Accesses from outside -/

/-- A read as the processor would do it. -/
def read [PictureUnit π] (m : Machine κ π δ) (address : UInt16) (peek : Bool) :
    UInt8 × Machine κ π δ :=
  let (byte, devices) := m.devices.read address peek
  (byte, { m with devices })

/-- A write as the processor would do it. -/
def write [PictureUnit π] [FileStore δ] (m : Machine κ π δ) (address : UInt16) (data : UInt8) :
    Machine κ π δ :=
  m.mapDevices (·.write address data)

/-- Sets the buttons that a player holds down. There are no players but 0 and 1. -/
def press (m : Machine κ π δ) (number : Nat) (buttons : UInt8) : Machine κ π δ :=
  match Player.ofNumber? number with
  | some player =>
    m.mapDevices fun d => { d with controllers := d.controllers.press player buttons }
  | none => m

/-- The latest events, newest first, at most `limit` of them. -/
def recentEvents (m : Machine κ π δ) (limit : Nat) : List Event :=
  m.devices.log.newest limit

/-! ### Time -/

/-- Runs a program of the processor. -/
def runProcessor [PictureUnit π] [FileStore δ] (m : Machine κ π δ) (program : BusProgram κ) :
    Machine κ π δ :=
  let (processor, devices) := program.run m.devices
  { m with processor, devices }

/-- The reset button. -/
def reset [Processor κ] [PictureUnit π] [FileStore δ] (m : Machine κ π δ) :
    Except Fault (Machine κ π δ) := do
  let m := m.mapDevices fun d => { d with cartridge := d.cartridge.map (·.reset) }
  let m := m.runProcessor (Processor.reset m.processor)
  let sound ← m.devices.sound.reset
  let m := m.mapDevices fun d =>
    { d with
      sound
      picture := PictureUnit.reset d.picture
      dma := .idle
      stall := 0 }.record .reset
  pure { m with ticks := 0, audioTime := 0.0 }

/-- Puts the cartridge of an image file in and resets the console. -/
def load [Processor κ] [PictureUnit π] [FileStore δ] (m : Machine κ π δ) (path : String) :
    Except LoadFailure (Machine κ π δ) := do
  let cartridge ←
    (Cartridge.openFile path m.settings.saveDirectory m.devices.store).mapError .image
  (m.insert cartridge).reset.mapError .reset

/-- One dot of the picture unit, which stands still without a cartridge. -/
def clockPicture [PictureUnit π] (m : Machine κ π δ) : Machine κ π δ :=
  m.mapDevices fun d =>
    match d.cartridge with
    | some c =>
      let (picture, c) := (PictureUnit.clock d.picture).run c
      { d with picture, cartridge := some c }
    | none => d

/-- One tick of the sound unit. -/
def clockSound (m : Machine κ π δ) : Except Fault (Machine κ π δ) := do
  let sound ← m.devices.sound.clock
  pure (m.mapDevices fun d => { d with sound })

/-- One clock of the processor. -/
def clockProcessor [Processor κ] [PictureUnit π] [FileStore δ] (m : Machine κ π δ) :
    Machine κ π δ :=
  let m := m.mapDevices fun d => { d with step := Processor.instructions m.processor }
  m.runProcessor (Processor.clock m.processor)

/-- A slot of the processor. The copier of sprite pages has it first, then the sample player. -/
def useSlot [Processor κ] [PictureUnit π] [FileStore δ] (m : Machine κ π δ) : Machine κ π δ :=
  if m.devices.dma.isActive then
    m.mapDevices (·.stepSpriteDma m.ticks)
  else
    let (taken, devices) := m.devices.serveDmc
    let m := { m with devices }
    if taken then m else m.clockProcessor

/-- The seconds of an audio sample. -/
def samplePeriod (m : Machine κ π δ) : Float :=
  1.0 / m.settings.sampleRate.toFloat

/-- The seconds of a tick. -/
def tickPeriod : Float :=
  1.0 / systemRate

/-- Takes an audio sample if its time has come. The first result tells whether it has. -/
def sampleAudio (m : Machine κ π δ) : Bool × Machine κ π δ :=
  let audioTime := m.audioTime + tickPeriod
  let period := m.samplePeriod
  if period ≤ audioTime then
    let (audioSample, sound) := m.devices.sound.sample
    let m := m.mapDevices fun d => { d with sound }
    (true, { m with audioTime := audioTime - period, audioSample })
  else
    (false, { m with audioTime })

/-- Polls the picture unit for an interrupt. -/
def pollNmi [Processor κ] [PictureUnit π] [FileStore δ] (m : Machine κ π δ) : Machine κ π δ :=
  let (pending, picture) := PictureUnit.pollNmi m.devices.picture
  let m := m.mapDevices fun d => { d with picture }
  if pending then m.runProcessor (Processor.nmi m.processor) else m

/-- Polls the cartridge for an interrupt and withdraws it. -/
def pollCartridgeIrq [Processor κ] [PictureUnit π] [FileStore δ] (m : Machine κ π δ) :
    Machine κ π δ :=
  match m.devices.cartridge with
  | some c =>
    if c.irqPending then
      let m := m.mapDevices fun d => { d with cartridge := some c.clearIrq }
      m.runProcessor (Processor.irq m.processor)
    else
      m
  | none => m

/-- Polls the sound unit for an interrupt. -/
def pollSoundIrq [Processor κ] [PictureUnit π] [FileStore δ] (m : Machine κ π δ) : Machine κ π δ :=
  if m.devices.sound.irqPending then m.runProcessor (Processor.irq m.processor) else m

/-- One tick. The first result tells whether it brought an audio sample. -/
def clock [Processor κ] [PictureUnit π] [FileStore δ] (m : Machine κ π δ) :
    Except Fault (Bool × Machine κ π δ) := do
  -- Interrupts are polled after the slot, so what the processor wrote in it counts at once.
  let m ← m.clockPicture.clockSound
  let m := if m.ticks % 3 = 0 then m.useSlot else m
  let (sampled, m) := m.sampleAudio
  let m := m.pollNmi.pollCartridgeIrq.pollSoundIrq
  pure (sampled, { m with ticks := m.ticks + 1 })

/-- More ticks than the longest audio sample takes. -/
def longestSample : Nat :=
  2 * 5369318

/-- Ticks up to the next audio sample, at most `fuel` of them. -/
def nextSampleWithin [Processor κ] [PictureUnit π] [FileStore δ] :
    Nat → Machine κ π δ → Except Fault (Machine κ π δ)
  | 0, m => .ok m
  | fuel + 1, m => do
    let (sampled, m) ← m.clock
    if sampled then pure m else nextSampleWithin fuel m

/-- The next audio sample. -/
def nextSample [Processor κ] [PictureUnit π] [FileStore δ] (m : Machine κ π δ) :
    Except Fault (Float32 × Machine κ π δ) := do
  let m ← nextSampleWithin longestSample m
  pure (m.audioSample, m)

/-- The picture unit has completed a frame. -/
def frameComplete [PictureUnit π] (m : Machine κ π δ) : Bool :=
  PictureUnit.frameComplete m.devices.picture

/-- Ticks up to the end of a frame, as long as fewer than the given number are used up. -/
def runFrameWithin [Processor κ] [PictureUnit π] [FileStore δ] :
    Nat → Machine κ π δ → Except Fault (Bool × Machine κ π δ)
  | 0, m =>
    .ok (false, m.mapDevices (·.record (.frameGuardTripped m.settings.frameGuardTicks)))
  | n + 1, m =>
    if m.frameComplete then .ok (true, m)
    else do
      let (_, m) ← m.clock
      runFrameWithin n m

/-- Ticks up to the end of the next frame. The first result is false without a cartridge, and when
the tick that uses up the guard has been made. -/
def runFrame [Processor κ] [PictureUnit π] [FileStore δ] (m : Machine κ π δ) :
    Except Fault (Bool × Machine κ π δ) :=
  if m.hasCartridge then
    let m := m.mapDevices fun d => { d with picture := PictureUnit.beginFrame d.picture }
    runFrameWithin (max m.settings.frameGuardTicks.toNat 1) m
  else
    .ok (false, m)

end Machine

end Famicom
