import Famicom.Bench.RegisterPicture
import Famicom.Bench.ScriptedProcessor
import Famicom.Proofs.Console.Calls
import Famicom.Proofs.Console.ControllerHistory
import Famicom.Storage.Disk

/-!
# The controllers on the bus

Controllers notice the buttons that are set from outside, the writes to the strobe's register and
the reads of their own, on whose behalf they may be made: the processor's, an interrupt's, the
sprite copier's, the sample player's or a user's. Nothing else on the console reaches them, neither
ticks nor resets nor another cartridge. So what all these reads give is told by the history.

## Main definitions

* `BusAccess.controllerEvents`, `Happening.controllerEvents` — what controllers notice
* `Machine.controllerLog` — all that the controllers of a console notice in a run

## Main results

* `Devices.run_read`, `Devices.run_write` — an access does to controllers what they notice
* `Machine.reaches_call` — so does a call of the console
* `Machine.controllers_tell_latched_buttons` — every read gives what the history tells
-/

namespace Famicom

open ControllerHistory

/-- The register of a player's controller. -/
def Player.register : Player → UInt16
  | .first => 0x4016
  | .second => 0x4017

/-- Whose controller is read at an address. -/
def Player.ofRegister? (address : UInt16) : Option Player :=
  if address = 0x4016 then some .first else if address = 0x4017 then some .second else none

theorem Player.eq_register {address : UInt16} {player : Player}
    (found : ofRegister? address = some player) : address = player.register := by
  unfold ofRegister? at found
  split_ifs at found with first second
  · obtain rfl := Option.some.inj found
    exact first
  · obtain rfl := Option.some.inj found
    exact second

/-- What controllers notice of an access. -/
def BusAccess.controllerEvents : BusAccess → List ControllerEvent
  | .read address peek byte =>
    match Player.ofRegister? address with
    | some player => [.read player peek byte]
    | none => []
  | .write address data => if address = 0x4016 then [.strobe data] else []
  | .startCopy _ _ => []

/-- What controllers notice of the use of a slot. The accesses of the processor are told apart from
its slot. -/
def SlotUse.controllerEvents : SlotUse → List ControllerEvent
  | .copier (some access) => access.controllerEvents
  | .fetch address byte => (BusAccess.read address false byte).controllerEvents
  | .copier none | .stall | .processor => []

/-- What controllers notice of what happens. -/
def Happening.controllerEvents : Happening → List ControllerEvent
  | .slot _ use => use.controllerEvents
  | .access _ made => made.controllerEvents
  | .reset => []

/-! ### Accesses -/

namespace Devices

variable {π δ : Type} [PictureUnit π] (d : Devices π δ)

theorem read_register (player : Player) (peek : Bool) :
    d.read player.register peek = d.readController player peek := by
  cases player with
  | first => exact d.read_eq_readConsole peek (by decide)
  | second => exact d.read_eq_readConsole peek (by decide)

theorem controllers_read_of_none {address : UInt16} (peek : Bool)
    (other : Player.ofRegister? address = none) :
    (d.read address peek).2.controllers = d.controllers := by
  unfold read
  split
  · rfl
  · unfold readConsole
    split
    · rfl
    · split
      · obtain ⟨_, _, reads⟩ := d.exists_readPicture (address &&& 0x0007) peek
        rw [reads]
      · -- Of the registers that are left, two are the controllers'.
        split
        · rfl
        · cases other
        · cases other
        · rfl

/-- A read does to the controllers what they notice of it. -/
theorem run_read (address : UInt16) (peek : Bool) :
    Controllers.Run d.controllers
      (BusAccess.read address peek (d.read address peek).1).controllerEvents
      (d.read address peek).2.controllers := by
  unfold BusAccess.controllerEvents
  dsimp only
  cases found : Player.ofRegister? address with
  | some player =>
    rw [Player.eq_register found, read_register]
    exact .cons rfl (.nil _)
  | none =>
    rw [d.controllers_read_of_none peek found]
    exact .nil _

variable [FileStore δ]

theorem controllers_write_of_ne {address : UInt16} (data : UInt8) (other : address ≠ 0x4016) :
    (d.write address data).controllers = d.controllers := by
  by_cases below : address < cartridgeStart
  · rw [d.write_eq_writeConsole data below]
    unfold writeConsole
    split
    · rfl
    · split
      · obtain ⟨_, _, writes⟩ := d.exists_writePicture (address &&& 0x0007) data
        rw [writes]
      · split
        · -- The copier starts with a read of the sprite address.
          exact d.controllers_read_of_none false rfl
        · split <;> rfl
  · obtain ⟨_, _, writes⟩ := d.exists_write_of_le data (UInt16.not_lt.mp below)
    rw [writes]

/-- A write does to the controllers what they notice of it. -/
theorem run_write (address : UInt16) (data : UInt8) :
    Controllers.Run d.controllers (d.writeAccess address data).controllerEvents
      (d.write address data).controllers := by
  by_cases strobe : address = 0x4016
  · obtain rfl := strobe
    have written : d.write 0x4016 data = { d with controllers := d.controllers.strobeWith data } :=
      d.write_eq_writeConsole data (by decide)
    rw [written]
    exact .cons trivial (.nil _)
  · rw [d.controllers_write_of_ne data strobe]
    have unnoticed : (d.writeAccess address data).controllerEvents = [] := by
      unfold writeAccess
      split
      · rfl
      · exact if_neg strobe
    rw [unnoticed]
    exact .nil _

/-- The copier does to the controllers what they notice of its access. -/
theorem run_stepSpriteDma (tick : UInt64) :
    Controllers.Run d.controllers (SlotUse.copier (d.copierAccess? tick)).controllerEvents
      (d.stepSpriteDma tick).controllers := by
  unfold copierAccess? stepSpriteDma
  cases d.dma with
  | idle => exact .nil _
  | aligning page address =>
    dsimp only
    split <;> exact .nil _
  | copying page address start data =>
    -- The page may be the one with the controllers' registers. What is written is sprite memory.
    dsimp only
    by_cases even : tick % 2 = 0
    · rw [if_pos even, if_pos even]
      exact d.run_read (SpriteDma.source page address) false
    · rw [if_neg even, if_neg even]
      have written := d.run_write 0x2004 data
      split <;> exact written

end Devices

/-- A program does to the controllers what they notice of its accesses. -/
theorem BusProgram.run_controllers {α π δ : Type} [PictureUnit π] [FileStore δ]
    (program : BusProgram α) (d : Devices π δ) :
    Controllers.Run d.controllers ((program.accesses d).flatMap BusAccess.controllerEvents)
      (program.run d).2.controllers := by
  induction program generalizing d with
  | done a => exact .nil _
  | read address peek next ih =>
    rw [accesses, List.flatMap_cons, run]
    exact (d.run_read address peek).append (ih _ _)
  | write address data next ih =>
    rw [accesses, List.flatMap_cons, run]
    exact (d.run_write address data).append (ih _)

/-! ### Ticks -/

namespace Machine

variable {κ π δ : Type} [PictureUnit π] [FileStore δ] {m m' : Machine κ π δ}

/-- A log tells all that is done to the controllers from one state of the console to another. -/
def ControllersRun (m : Machine κ π δ) (log : List Happening) (m' : Machine κ π δ) : Prop :=
  Controllers.Run m.devices.controllers (log.flatMap Happening.controllerEvents)
    m'.devices.controllers

omit [PictureUnit π] [FileStore δ] in
theorem ControllersRun.of_eq (same : m'.devices.controllers = m.devices.controllers) :
    ControllersRun m [] m' := by
  unfold ControllersRun
  rw [same]
  exact .nil _

omit [PictureUnit π] [FileStore δ] in
theorem ControllersRun.append {m'' : Machine κ π δ} {log log' : List Happening}
    (h : ControllersRun m log m') (h' : ControllersRun m' log' m'') :
    ControllersRun m (log ++ log') m'' := by
  unfold ControllersRun
  rw [List.flatMap_append]
  exact Controllers.Run.append h h'

omit [PictureUnit π] [FileStore δ] in
theorem ControllersRun.slot (tick : UInt64) {use : SlotUse}
    (h : Controllers.Run m.devices.controllers use.controllerEvents m'.devices.controllers) :
    ControllersRun m [.slot tick use] m' := by
  unfold ControllersRun
  rw [List.flatMap_singleton]
  exact h

theorem controllersRun_program (m : Machine κ π δ) (origin : Origin) (program : BusProgram κ) :
    ControllersRun m (m.programLog origin program) (m.runProcessor program) := by
  unfold ControllersRun programLog
  rw [List.flatMap_map]
  exact program.run_controllers m.devices

variable [Processor κ]

theorem IsPoll.controllersRun {log : List Happening} (h : m.IsPoll log m') :
    ControllersRun m log m' := by
  cases h with
  | quiet picture cartridge => exact .of_eq rfl
  | interrupt picture cartridge program handler =>
    exact controllersRun_program (m.mapDevices fun d => { d with picture, cartridge }) _ program

theorem controllersRun_poll (m : Machine κ π δ) : ControllersRun m m.pollLog m.poll :=
  m.isPoll_nmi.controllersRun.append
    (m.pollNmi.isPoll_cartridgeIrq.controllersRun.append
      m.pollNmi.pollCartridgeIrq.isPoll_soundIrq.controllersRun)

theorem controllersRun_useSlot (m : Machine κ π δ) : ControllersRun m m.slotLog m.useSlot := by
  rw [slotLog, useSlot_eq]
  cases use : m.devices.slotUse m.ticks with
  | copier access =>
    obtain rfl := Devices.eq_copierAccess?_of_slotUse use
    exact .slot m.ticks (m.devices.run_stepSpriteDma m.ticks)
  | fetch address byte =>
    obtain rfl := Devices.eq_read_of_slotUse use
    exact .slot m.ticks (m.devices.run_read address false)
  | stall => exact .of_eq rfl
  | processor => exact m.countInstructions.controllersRun_program .processor _

theorem controllersRun_slot (m : Machine κ π δ) :
    ControllersRun m (if m.ticks % 3 = 0 then m.slotLog else []) m.slot := by
  unfold slot
  split
  · exact m.controllersRun_useSlot
  · exact .of_eq rfl

omit [PictureUnit π] [FileStore δ] [Processor κ] in
theorem controllersRun_sampleAudio (m : Machine κ π δ) : ControllersRun m [] m.sampleAudio.2 := by
  obtain ⟨_, _, _, sampled⟩ := m.exists_sampleAudio
  rw [sampled]
  exact .of_eq rfl

omit [FileStore δ] [Processor κ] in
/-- A read from outside gives what the past tells. -/
theorem read_register_eq_reading {past : List ControllerEvent}
    (h : m.devices.controllers.Remembers past) (player : Player) (peek : Bool) :
    (m.read player.register peek).1 = reading player past := by
  rw [read, Devices.read_register]
  exact h.eq_reading player peek

omit [FileStore δ] [Processor κ] in
/-- Picture and sound unit know nothing of the controllers. -/
theorem controllers_of_clockSound {late : Machine κ π δ}
    (clocked : m.clockPicture.clockSound = .ok late) :
    late.devices.controllers = m.devices.controllers := by
  obtain ⟨_, _, _, rfl⟩ := exists_of_clockSound clocked
  rfl

theorem controllersRun_late (m : Machine κ π δ) :
    ControllersRun m m.lateLog m.slot.sampleAudio.2.poll :=
  m.controllersRun_slot.append
    (m.slot.controllersRun_sampleAudio.append m.slot.sampleAudio.2.controllersRun_poll)

theorem controllersRun_reset (m : Machine κ π δ) :
    ControllersRun m m.resetLog (m.resetCartridge.runProcessor (Processor.reset m.processor)) := by
  have programmed := m.resetCartridge.controllersRun_program .reset (Processor.reset m.processor)
  exact programmed.append (.of_eq rfl)

/-! ### Calls -/

/-- What controllers notice in an operation. There are no players but 0 and 1. -/
def controllerEvents (m : Machine κ π δ) : Operation κ π δ → List ControllerEvent
  | .press number buttons =>
    match Player.ofNumber? number with
    | some player => [.press player buttons]
    | none => []
  | op => (m.happenings op).flatMap Happening.controllerEvents

/-- What controllers notice in a call. -/
def controllerEventsIn (m : Machine κ π δ) : Call κ π δ → List ControllerEvent
  | .once op => m.controllerEvents op
  | ticks => (m.tickingIn ticks).flatMap (·.controllerEvents .clock)

/-- All that controllers notice in a run. -/
abbrev controllerLog (m : Machine κ π δ) (calls : List (Call κ π δ)) : List ControllerEvent :=
  runLog call controllerEventsIn calls m

/-- What controllers notice leads them to where every outcome has them. There may be none. -/
def ControllersReach (m : Machine κ π δ) (events : List ControllerEvent)
    (Outcome : Machine κ π δ → Prop) : Prop :=
  ∃ c, Controllers.Run m.devices.controllers events c ∧
    ∀ m', Outcome m' → m'.devices.controllers = c

theorem reaches_clock (m : Machine κ π δ) :
    m.ControllersReach (m.controllerEvents .clock)
      fun m' => ∃ sampled, m.clock = .ok (sampled, m') := by
  change m.ControllersReach (m.clockLog.flatMap _) _
  rw [clockLog, clock_eq]
  cases clocked : m.clockPicture.clockSound with
  | error fault =>
    refine ⟨_, .nil _, ?_⟩
    rintro m' ⟨sampled, run⟩
    cases run
  | ok late =>
    have run := late.controllersRun_late
    unfold ControllersRun at run
    rw [controllers_of_clockSound clocked] at run
    refine ⟨_, run, ?_⟩
    rintro m' ⟨sampled, moved⟩
    obtain ⟨-, rfl⟩ := Prod.mk.inj (Except.ok.inj moved)
    rfl

theorem reaches_reset (m : Machine κ π δ) :
    m.ControllersReach (m.resetLog.flatMap Happening.controllerEvents)
      fun m' => m.reset = .ok m' := by
  -- What follows the processor's program in a reset leaves the controllers as they are.
  refine ⟨_, m.controllersRun_reset, ?_⟩
  intro m' run
  obtain ⟨sound, -, made⟩ := bind_eq_ok.mp run
  obtain rfl := Except.ok.inj made
  rfl

theorem reaches_apply (m : Machine κ π δ) (op : Operation κ π δ) :
    m.ControllersReach (m.controllerEvents op) fun m' => m.apply op = .ok m' := by
  have outside {m' : Machine κ π δ} {events : List ControllerEvent}
      (run : Controllers.Run m.devices.controllers events m'.devices.controllers) :
      m.ControllersReach events fun m'' => .ok m' = (Except.ok m'' : Except Fault _) :=
    ⟨_, run, fun m'' same => by rw [Except.ok.inj same]⟩
  cases op with
  | clock =>
    obtain ⟨c, run, ends⟩ := m.reaches_clock
    refine ⟨c, run, ?_⟩
    intro m' applied
    obtain ⟨⟨sampled, middle⟩, clocked, rest⟩ := bind_eq_ok.mp applied
    obtain rfl := Except.ok.inj rest
    exact ends middle ⟨sampled, clocked⟩
  | reset => exact m.reaches_reset
  | load path =>
    unfold controllerEvents happenings
    rw [apply_load]
    dsimp only
    cases Cartridge.openFile path m.settings.saveDirectory m.devices.store with
    | error error => exact outside (.nil _)
    | ok cartridge => exact (m.insert cartridge).reaches_reset
  | read address peek =>
    have noticed : m.controllerEvents (.read address peek) =
        (BusAccess.read address peek (m.devices.read address peek).1).controllerEvents :=
      List.flatMap_singleton ..
    rw [noticed]
    exact outside (m.devices.run_read address peek)
  | write address data =>
    have noticed : m.controllerEvents (.write address data) =
        (m.devices.writeAccess address data).controllerEvents :=
      List.flatMap_singleton ..
    rw [noticed]
    exact outside (m.devices.run_write address data)
  | press number buttons =>
    unfold controllerEvents apply press
    dsimp only
    cases Player.ofNumber? number with
    | none => exact outside (.nil _)
    | some player => exact outside (.cons trivial (.nil _))
  | mapSound f =>
    refine ⟨_, .nil _, ?_⟩
    intro m' run
    obtain ⟨sound, -, made⟩ := bind_eq_ok.mp run
    obtain rfl := Except.ok.inj made
    rfl
  | mapCartridge f =>
    -- The cartridge and the files change, if there is a cartridge.
    refine ⟨_, .nil _, ?_⟩
    intro m' run
    obtain rfl := Except.ok.inj run
    unfold mapDevices
    dsimp only
    split <;> rfl
  | insert cartridge => exact outside (.nil _)
  | setSampleRate rate => exact outside (.nil _)
  | mapProcessor f => exact outside (.nil _)
  | mapPicture f => exact outside (.nil _)

theorem reaches_nextSampleWithin (m : Machine κ π δ) (fuel : Nat) :
    m.ControllersReach ((tickingToSample fuel m).flatMap (·.controllerEvents .clock))
      fun m' => m.nextSampleWithin fuel = .ok m' := by
  induction fuel generalizing m with
  | zero =>
    refine ⟨_, .nil _, ?_⟩
    intro m' run
    obtain rfl := Except.ok.inj run
    rfl
  | succ fuel ih =>
    obtain ⟨c, ticked, ends⟩ := m.reaches_clock
    rw [tickingToSample, List.flatMap_cons]
    unfold nextSampleWithin
    cases clocked : m.clock with
    | error fault =>
      -- What the failing tick tells is the last that happens.
      refine ⟨c, by simpa using ticked, ?_⟩
      intro m' run
      cases run
    | ok result =>
      obtain ⟨sampled, middle⟩ := result
      have reached := ends middle ⟨sampled, clocked⟩
      cases sampled with
      | true =>
        refine ⟨c, by simpa using ticked, ?_⟩
        intro m' run
        obtain rfl := Except.ok.inj run
        exact reached
      | false =>
        obtain ⟨c', later, ends'⟩ := ih middle
        rw [reached] at later
        exact ⟨c', ticked.append later, ends'⟩

theorem reaches_runFrameWithin (m : Machine κ π δ) (fuel : Nat) :
    m.ControllersReach ((tickingToFrame fuel m).flatMap (·.controllerEvents .clock))
      fun m' => ∃ complete, m.runFrameWithin fuel = .ok (complete, m') := by
  induction fuel generalizing m with
  | zero =>
    refine ⟨_, .nil _, ?_⟩
    rintro m' ⟨complete, run⟩
    obtain ⟨-, rfl⟩ := Prod.mk.inj (Except.ok.inj run)
    rfl
  | succ fuel ih =>
    unfold tickingToFrame runFrameWithin
    split
    · refine ⟨_, .nil _, ?_⟩
      rintro m' ⟨complete, run⟩
      obtain ⟨-, rfl⟩ := Prod.mk.inj (Except.ok.inj run)
      rfl
    · obtain ⟨c, ticked, ends⟩ := m.reaches_clock
      rw [List.flatMap_cons]
      cases clocked : m.clock with
      | error fault =>
        refine ⟨c, by simpa using ticked, ?_⟩
        rintro m' ⟨complete, run⟩
        cases run
      | ok result =>
        obtain ⟨sampled, middle⟩ := result
        have reached := ends middle ⟨sampled, clocked⟩
        obtain ⟨c', later, ends'⟩ := ih middle
        rw [reached] at later
        exact ⟨c', ticked.append later, ends'⟩

/-- A call does to the controllers what they notice in it, even if it fails. -/
theorem reaches_call (m : Machine κ π δ) (c : Call κ π δ) :
    m.ControllersReach (m.controllerEventsIn c) fun m' => m.call c = .ok m' := by
  cases c with
  | once op => exact m.reaches_apply op
  | nextSample =>
    obtain ⟨c, run, ends⟩ := m.reaches_nextSampleWithin longestSample
    refine ⟨c, run, ?_⟩
    intro m' called
    obtain ⟨⟨audioSample, middle⟩, sampled, rest⟩ := bind_eq_ok.mp called
    obtain rfl := Except.ok.inj rest
    obtain ⟨last, ran, rest⟩ := bind_eq_ok.mp sampled
    obtain ⟨-, rfl⟩ := Prod.mk.inj (Except.ok.inj rest)
    exact ends last ran
  | runFrame =>
    unfold controllerEventsIn tickingIn call runFrame
    dsimp only
    split
    · obtain ⟨c, run, ends⟩ := m.beginFrame.reaches_runFrameWithin
        (max m.settings.frameGuardTicks.toNat 1)
      refine ⟨c, run, ?_⟩
      intro m' called
      obtain ⟨⟨complete, middle⟩, ran, rest⟩ := bind_eq_ok.mp called
      obtain rfl := Except.ok.inj rest
      exact ends middle ⟨complete, ran⟩
    · refine ⟨_, .nil _, ?_⟩
      intro m' called
      obtain rfl := Except.ok.inj called
      rfl

/-- A run does to the controllers what they notice in it, as far as it comes. -/
theorem reaches_run (m : Machine κ π δ) (calls : List (Call κ π δ)) :
    m.ControllersReach (m.controllerLog calls) fun m' => calls.foldlM call m = .ok m' := by
  induction calls generalizing m with
  | nil =>
    refine ⟨_, .nil _, ?_⟩
    intro m' run
    rw [foldlM_nil_eq_ok.mp run]
  | cons first calls ih =>
    obtain ⟨c, run, ends⟩ := m.reaches_call first
    rw [controllerLog, runLog]
    cases called : m.call first with
    | error fault =>
      refine ⟨c, by simpa using run, ?_⟩
      intro m' ran
      obtain ⟨middle, moved, -⟩ := foldlM_cons_eq_ok.mp ran
      rw [called] at moved
      cases moved
    | ok middle =>
      obtain ⟨c', later, ends'⟩ := ih middle
      rw [ends middle called] at later
      refine ⟨c', run.append later, ?_⟩
      intro m' ran
      obtain ⟨middle', moved, rest⟩ := foldlM_cons_eq_ok.mp ran
      rw [called] at moved
      obtain rfl := Except.ok.inj moved
      exact ends' m' rest

/-- **Controllers tell the latched buttons.** Whatever is done to a console since it was made, a
read of a controller gives the first button that is held while the strobe is high. Otherwise it
gives one of the buttons that were held when the strobe last fell, the next after each read, and
none after the eighth. This is so for every read in the run, on whose behalf it may be made and even
if the run fails later, and for one from outside after the run. What the latter gives while the
strobe is low stays the same over a call in which the player's controller is not read and the strobe
does not rise. -/
theorem controllers_tell_latched_buttons {processor : κ} {picture : π} {store : δ}
    {settings : Settings} {start : Machine κ π δ}
    (made : initial processor picture store settings = .ok start) (calls : List (Call κ π δ)) :
    (∀ past later player peek byte,
      start.controllerLog calls = past ++ .read player peek byte :: later →
        byte = reading player past.reverse) ∧
    ∀ m, calls.foldlM call start = .ok m →
      (∀ player peek,
        (m.read player.register peek).1 = reading player (start.controllerLog calls).reverse) ∧
      ∀ c m' player, m.call c = .ok m' → strobed (start.controllerLog calls).reverse = false →
        (∀ event ∈ m.controllerEventsIn c, event.IsQuiet player) →
          ∀ peek, (m'.read player.register peek).1 = (m.read player.register peek).1 := by
  obtain ⟨c, run, ends⟩ := start.reaches_run calls
  have fresh : start.devices.controllers.Remembers [] := by
    obtain ⟨sound, -, rest⟩ := bind_eq_ok.mp made
    obtain rfl := Except.ok.inj rest
    exact Controllers.remembers_nil
  refine ⟨?every, fun m ran => ?after⟩
  case every =>
    intro past later player peek byte told
    have told := run.eq_reading fresh told
    rwa [List.append_nil] at told
  case after =>
    have known := run.remembers fresh
    rw [List.append_nil, ← ends m ran] at known
    refine ⟨fun player peek => read_register_eq_reading known player peek, ?_⟩
    intro c m' player called low quiet peek
    obtain ⟨c', further, ends'⟩ := m.reaches_call c
    have later := further.remembers known
    rw [← ends' m' called] at later
    rw [read_register_eq_reading later player peek, read_register_eq_reading known player peek,
      reading_append_of_quiet low quiet]

/-- The buttons that were held at the fall of the strobe come out after they are let go, also across
a reset. -/
theorem controllers_tell_latched_buttons_of_fall :
    let calls : List (Call Bench.ScriptedProcessor Bench.RegisterPicture Disk) :=
      [.once (.press 0 0x05), .once (.write 0x4016 0x01), .once (.press 2 0xFF),
        .once (.write 0x4016 0x00), .once (.press 0 0x00), .once (.read 0x4016 false),
        .once (.read 0x4017 false), .once (.read 0x4016 false)]
    ∃ start m m', initial {} {} {} {} = .ok start ∧ calls.foldlM call start = .ok m ∧
      start.controllerLog calls =
        [.press .first 0x05, .strobe 0x01, .strobe 0x00, .press .first 0x00] ++
          .read .first false 0x01 :: [.read .second false 0x00, .read .first false 0x00] ∧
      0x01 = reading .first [.press .first 0x00, .strobe 0x00, .strobe 0x01, .press .first 0x05] ∧
      (m.read 0x4016 false).1 = 0x01 ∧
      m.call (.once .reset) = .ok m' ∧ (m'.read 0x4016 false).1 = 0x01 := by
  intro calls
  obtain ⟨start, made, m, ran, log, m', reset, unnoticed⟩ :
      ∃ start : Machine Bench.ScriptedProcessor Bench.RegisterPicture Disk,
        initial {} {} {} {} = .ok start ∧ ∃ m, calls.foldlM call start = .ok m ∧
          start.controllerLog calls =
            [.press .first 0x05, .strobe 0x01, .strobe 0x00, .press .first 0x00] ++
              .read .first false 0x01 :: [.read .second false 0x00, .read .first false 0x00] ∧
          ∃ m', m.call (.once .reset) = .ok m' ∧ m.controllerEventsIn (.once .reset) = [] :=
    ⟨_, rfl, _, rfl, rfl, _, rfl, rfl⟩
  obtain ⟨told, after⟩ := controllers_tell_latched_buttons made calls
  obtain ⟨next, still⟩ := after m ran
  -- The third button is the next, and was held.
  have third := next .first false
  have low : strobed (start.controllerLog calls).reverse = false := by
    rw [log]
    rfl
  rw [log] at third
  have quiet : ∀ event ∈ m.controllerEventsIn (.once .reset), event.IsQuiet .first := by
    rw [unnoticed]
    exact nofun
  exact ⟨start, m, m', made, ran, log, told _ _ _ _ _ log, third, reset,
    (still _ m' .first reset low quiet false).trans third⟩

end Machine

end Famicom
