import Famicom.Proofs.Console.Calls

/-!
# Paths of accesses

Work RAM is behind the bus: whatever the console does, it reaches the RAM by accesses of the bus
only, on whose behalf they may be made. So the devices take a path from one access to the next, and
between the accesses anything may change but the RAM.

## Main definitions

* `BusPath` — accesses that lead from some devices to others
* `Happening.accesses`, `Machine.accessLog` — the accesses of what happens, and of a run
* `Machine.Follows` — a run makes accesses on a path, as far as it comes

## Main results

* `Machine.follows_call` — every call makes the accesses of its log
* `Machine.follows_run` — so does every run
-/

namespace Famicom

open Audio

/-- Accesses lead from some devices to others. Besides, anything may change but the RAM. -/
inductive BusPath {π δ : Type} [PictureUnit π] [FileStore δ] :
    Devices π δ → List BusAccess → Devices π δ → Prop
  | nil (d : Devices π δ) : BusPath d [] d
  | read {d d' : Devices π δ} {log : List BusAccess} (address : UInt16) (peek : Bool)
    (rest : BusPath (d.read address peek).2 log d') :
    BusPath d (.read address peek (d.read address peek).1 :: log) d'
  | write {d d' : Devices π δ} {log : List BusAccess} (address : UInt16) (data : UInt8)
    (rest : BusPath (d.write address data) log d') :
    BusPath d (d.writeAccess address data :: log) d'
  | besides {d middle d' : Devices π δ} {log : List BusAccess} (same : middle.ram = d.ram)
    (rest : BusPath middle log d') : BusPath d log d'

namespace BusPath

variable {π δ : Type} [PictureUnit π] [FileStore δ] {d d' d'' : Devices π δ}
  {log log' : List BusAccess}

theorem of_same (same : d'.ram = d.ram) : BusPath d [] d' :=
  .besides same (.nil d')

theorem append (h : BusPath d log d') (h' : BusPath d' log' d'') : BusPath d (log ++ log') d'' := by
  induction h with
  | nil d => exact h'
  | read address peek rest ih => exact .read address peek (ih h')
  | write address data rest ih => exact .write address data (ih h')
  | besides same rest ih => exact .besides same (ih h')

/-- Something besides may change before the accesses. -/
theorem preceded {middle : Devices π δ} (h : BusPath middle log d')
    (same : middle.ram = d.ram) : BusPath d log d' :=
  .besides same h

/-- Something besides may change after the accesses. -/
theorem followed (h : BusPath d log d') (same : d''.ram = d'.ram) : BusPath d log d'' :=
  List.append_nil log ▸ h.append (.of_same same)

end BusPath

/-- A program makes its accesses. -/
theorem BusProgram.busPath {α π δ : Type} [PictureUnit π] [FileStore δ] (program : BusProgram α)
    (d : Devices π δ) : BusPath d (program.accesses d) (program.run d).2 := by
  induction program generalizing d with
  | done a => exact .nil d
  | read address peek next ih => exact .read address peek (ih _ _)
  | write address data next ih => exact .write address data (ih _)

/-! ### The log -/

/-- The access that a slot is used for. Those of the processor are told apart from its slot. -/
def SlotUse.accesses : SlotUse → List BusAccess
  | .copier (some access) => [access]
  | .fetch address byte => [.read address false byte]
  | .copier none | .stall | .processor => []

/-- The accesses of what happens. -/
def Happening.accesses : Happening → List BusAccess
  | .slot _ use => use.accesses
  | .access _ made => [made]
  | .reset => []

/-- The copier makes the access that it says. -/
theorem Devices.busPath_stepSpriteDma {π δ : Type} [PictureUnit π] [FileStore δ] (d : Devices π δ)
    (tick : UInt64) :
    BusPath d (SlotUse.copier (d.copierAccess? tick)).accesses (d.stepSpriteDma tick) := by
  unfold copierAccess? stepSpriteDma
  cases d.dma with
  | idle => exact .nil d
  | aligning page address =>
    dsimp only
    split <;> exact .of_same rfl
  | copying page address start data =>
    dsimp only
    by_cases even : tick % 2 = 0
    · rw [if_pos even, if_pos even]
      exact .read _ false (.of_same rfl)
    · rw [if_neg even, if_neg even]
      -- Sprite memory is not the copier's own register.
      have written : BusPath d [.write 0x2004 data] (d.write 0x2004 data) :=
        .write (d := d) 0x2004 data (.nil _)
      split <;> exact written.followed rfl

namespace Machine

variable {κ π δ : Type} [PictureUnit π] [FileStore δ] {m m' : Machine κ π δ}

/-- What happens leads from one state of the console to another. -/
def Makes (m : Machine κ π δ) (log : List Happening) (m' : Machine κ π δ) : Prop :=
  BusPath m.devices (log.flatMap Happening.accesses) m'.devices

theorem Makes.of_same (same : m'.devices.ram = m.devices.ram) : Makes m [] m' :=
  BusPath.of_same same

theorem Makes.preceded {middle : Machine κ π δ} {log : List Happening} (h : Makes middle log m')
    (same : middle.devices.ram = m.devices.ram) : Makes m log m' :=
  BusPath.preceded h same

theorem Makes.append {m'' : Machine κ π δ} {log log' : List Happening} (h : Makes m log m')
    (h' : Makes m' log' m'') : Makes m (log ++ log') m'' := by
  unfold Makes
  rw [List.flatMap_append]
  exact BusPath.append h h'

theorem Makes.slot (tick : UInt64) {use : SlotUse}
    (h : BusPath m.devices use.accesses m'.devices) : Makes m [.slot tick use] m' := by
  unfold Makes
  rw [List.flatMap_singleton]
  exact h

theorem makes_program (m : Machine κ π δ) (origin : Origin) (program : BusProgram κ) :
    Makes m (m.programLog origin program) (m.runProcessor program) := by
  have alone (accesses : List BusAccess) :
      (accesses.map (Happening.access origin)).flatMap Happening.accesses = accesses := by
    rw [List.flatMap_map]
    exact List.flatMap_singleton' accesses
  unfold Makes programLog
  rw [alone]
  exact program.busPath m.devices

variable [Processor κ]

theorem IsPoll.makes {log : List Happening} (h : m.IsPoll log m') : Makes m log m' := by
  cases h with
  | quiet picture cartridge => exact .of_same rfl
  | interrupt picture cartridge program handler =>
    have handled := makes_program (m.mapDevices fun d => { d with picture, cartridge })
      .interrupt program
    exact handled.preceded rfl

theorem makes_poll (m : Machine κ π δ) : Makes m m.pollLog m.poll :=
  m.isPoll_nmi.makes.append
    (m.pollNmi.isPoll_cartridgeIrq.makes.append
      m.pollNmi.pollCartridgeIrq.isPoll_soundIrq.makes)

theorem makes_useSlot (m : Machine κ π δ) : Makes m m.slotLog m.useSlot := by
  rw [slotLog, useSlot_eq]
  cases use : m.devices.slotUse m.ticks with
  | copier access =>
    obtain rfl := Devices.eq_copierAccess?_of_slotUse use
    exact .slot m.ticks (m.devices.busPath_stepSpriteDma m.ticks)
  | fetch address byte =>
    obtain rfl := Devices.eq_read_of_slotUse use
    exact .slot m.ticks (.read address false (.of_same rfl))
  | stall => exact .of_same rfl
  | processor =>
    have clocked := m.countInstructions.makes_program .processor (Processor.clock m.processor)
    exact clocked.preceded rfl

theorem makes_slot (m : Machine κ π δ) :
    Makes m (if m.ticks % 3 = 0 then m.slotLog else []) m.slot := by
  unfold slot
  split
  · exact m.makes_useSlot
  · exact .of_same rfl

omit [Processor κ] in
theorem makes_sampleAudio (m : Machine κ π δ) : Makes m [] m.sampleAudio.2 := by
  obtain ⟨_, _, _, sampled⟩ := m.exists_sampleAudio
  rw [sampled]
  exact .of_same rfl

theorem makes_late (m : Machine κ π δ) : Makes m m.lateLog m.slot.sampleAudio.2.poll :=
  m.makes_slot.append (m.slot.makes_sampleAudio.append m.slot.sampleAudio.2.makes_poll)

theorem makes_reset (m : Machine κ π δ) :
    Makes m m.resetLog (m.resetCartridge.runProcessor (Processor.reset m.processor)) := by
  have programmed := m.resetCartridge.makes_program .reset (Processor.reset m.processor)
  have resets : Makes (m.resetCartridge.runProcessor (Processor.reset m.processor)) [.reset]
      (m.resetCartridge.runProcessor (Processor.reset m.processor)) := .nil _
  exact (programmed.append resets).preceded rfl

/-! ### Calls -/

/-- The accesses of a call. -/
def accessesIn (m : Machine κ π δ) : Call κ π δ → List BusAccess
  | .once op => (m.happenings op).flatMap Happening.accesses
  | ticks => (m.tickingIn ticks).flatMap fun m => m.clockLog.flatMap Happening.accesses

/-- The accesses of a run, in order. -/
abbrev accessLog (m : Machine κ π δ) (calls : List (Call κ π δ)) : List BusAccess :=
  runLog call accessesIn calls m

/-- Accesses lead to where every outcome has the RAM. There may be no outcome. -/
def Follows (m : Machine κ π δ) (log : List BusAccess) (Outcome : Machine κ π δ → Prop) : Prop :=
  ∃ d, BusPath m.devices log d ∧ ∀ m', Outcome m' → m'.devices.ram = d.ram

omit [Processor κ] in
theorem Follows.of_path {log : List BusAccess} {d : Devices π δ} (path : BusPath m.devices log d)
    {outcome : Except Fault (Machine κ π δ)}
    (ends : ∀ m', outcome = .ok m' → m'.devices.ram = d.ram) :
    m.Follows log fun m' => outcome = .ok m' :=
  ⟨d, path, ends⟩

theorem follows_clock (m : Machine κ π δ) :
    m.Follows (m.clockLog.flatMap Happening.accesses)
      fun m' => ∃ sampled, m.clock = .ok (sampled, m') := by
  rw [clockLog, clock_eq]
  cases clocked : m.clockPicture.clockSound with
  | error fault =>
    refine ⟨_, .nil _, ?_⟩
    rintro m' ⟨sampled, run⟩
    cases run
  | ok late =>
    obtain ⟨picture, cartridge, sound, rfl⟩ := exists_of_clockSound clocked
    refine ⟨_, (makes_late _).preceded rfl, ?_⟩
    rintro m' ⟨sampled, moved⟩
    obtain ⟨-, rfl⟩ := Prod.mk.inj (Except.ok.inj moved)
    rfl

theorem follows_reset (m : Machine κ π δ) :
    m.Follows (m.resetLog.flatMap Happening.accesses) fun m' => m.reset = .ok m' := by
  refine ⟨_, m.makes_reset, ?_⟩
  intro m' run
  obtain ⟨sound, -, made⟩ := bind_eq_ok.mp run
  obtain rfl := Except.ok.inj made
  rfl

/-- An operation makes the accesses of its log. -/
theorem follows_apply (m : Machine κ π δ) (op : Operation κ π δ) :
    m.Follows (m.accessesIn (.once op)) fun m' => m.apply op = .ok m' := by
  have still {outcome : Except Fault (Machine κ π δ)}
      (same : ∀ m', outcome = .ok m' → m'.devices.ram = m.devices.ram) :
      m.Follows [] fun m' => outcome = .ok m' :=
    ⟨m.devices, .nil _, same⟩
  cases op with
  | clock =>
    obtain ⟨d, path, ends⟩ := m.follows_clock
    refine ⟨d, path, ?_⟩
    intro m' applied
    obtain ⟨⟨sampled, middle⟩, clocked, rest⟩ := bind_eq_ok.mp applied
    obtain rfl := Except.ok.inj rest
    exact ends middle ⟨sampled, clocked⟩
  | reset => exact m.follows_reset
  | load path =>
    unfold accessesIn happenings
    rw [apply_load]
    dsimp only
    cases Cartridge.openFile path m.settings.saveDirectory m.devices.store with
    | error error => exact still fun m' same => by rw [← Except.ok.inj same]
    | ok cartridge =>
      obtain ⟨d, made, ends⟩ := (m.insert cartridge).follows_reset
      exact ⟨d, made.preceded rfl, ends⟩
  | read address peek =>
    exact ⟨_, .read address peek (.nil _), fun m' same => by rw [← Except.ok.inj same]; rfl⟩
  | write address data =>
    exact ⟨_, .write address data (.nil _), fun m' same => by rw [← Except.ok.inj same]; rfl⟩
  | press number buttons =>
    refine still fun m' same => ?_
    rw [← Except.ok.inj same, press]
    split <;> rfl
  | mapSound f =>
    refine still fun m' run => ?_
    obtain ⟨sound, -, made⟩ := bind_eq_ok.mp run
    rw [← Except.ok.inj made]
    rfl
  | mapCartridge f =>
    refine still fun m' same => ?_
    rw [← Except.ok.inj same, mapDevices]
    dsimp only
    split <;> rfl
  | insert cartridge => exact still fun m' same => by rw [← Except.ok.inj same]; rfl
  | setSampleRate rate => exact still fun m' same => by rw [← Except.ok.inj same]; rfl
  | mapProcessor f => exact still fun m' same => by rw [← Except.ok.inj same]
  | mapPicture f => exact still fun m' same => by rw [← Except.ok.inj same]; rfl

/-- Ticks up to a sample make the accesses of the ticks. -/
theorem follows_nextSampleWithin (m : Machine κ π δ) (fuel : Nat) :
    m.Follows ((tickingToSample fuel m).flatMap fun m => m.clockLog.flatMap Happening.accesses)
      fun m' => m.nextSampleWithin fuel = .ok m' := by
  induction fuel generalizing m with
  | zero => exact .of_path (.nil _) fun m' same => by rw [← Except.ok.inj same]
  | succ fuel ih =>
    obtain ⟨d, ticked, ends⟩ := m.follows_clock
    rw [tickingToSample, List.flatMap_cons]
    unfold nextSampleWithin
    cases clocked : m.clock with
    | error fault =>
      -- The failing tick may have made accesses before it failed.
      exact .of_path (by simpa using ticked) fun m' run => by cases run
    | ok result =>
      obtain ⟨sampled, middle⟩ := result
      have reached := ends middle ⟨sampled, clocked⟩
      cases sampled with
      | true =>
        refine .of_path (by simpa using ticked) fun m' run => ?_
        obtain rfl := Except.ok.inj run
        exact reached
      | false =>
        obtain ⟨d', later, ends'⟩ := ih middle
        exact ⟨d', ticked.append (.besides reached later), ends'⟩

/-- Ticks up to the end of a frame make the accesses of the ticks. -/
theorem follows_runFrameWithin (m : Machine κ π δ) (fuel : Nat) :
    m.Follows ((tickingToFrame fuel m).flatMap fun m => m.clockLog.flatMap Happening.accesses)
      fun m' => ∃ complete, m.runFrameWithin fuel = .ok (complete, m') := by
  induction fuel generalizing m with
  | zero =>
    refine ⟨_, .nil _, ?_⟩
    rintro m' ⟨complete, run⟩
    obtain ⟨-, rfl⟩ := Prod.mk.inj (Except.ok.inj run)
    rfl
  | succ fuel ih =>
    unfold tickingToFrame runFrameWithin
    split
    · refine ⟨_, .nil _, ?_⟩
      rintro m' ⟨complete, run⟩
      obtain ⟨-, rfl⟩ := Prod.mk.inj (Except.ok.inj run)
      rfl
    · obtain ⟨d, ticked, ends⟩ := m.follows_clock
      rw [List.flatMap_cons]
      cases clocked : m.clock with
      | error fault =>
        refine ⟨d, by simpa using ticked, ?_⟩
        rintro m' ⟨complete, run⟩
        cases run
      | ok result =>
        obtain ⟨sampled, middle⟩ := result
        obtain ⟨d', later, ends'⟩ := ih middle
        exact ⟨d', ticked.append (.besides (ends middle ⟨sampled, clocked⟩) later), ends'⟩

/-- A call makes the accesses of its log, even if it fails. -/
theorem follows_call (m : Machine κ π δ) (c : Call κ π δ) :
    m.Follows (m.accessesIn c) fun m' => m.call c = .ok m' := by
  cases c with
  | once op => exact m.follows_apply op
  | nextSample =>
    obtain ⟨d, path, ends⟩ := m.follows_nextSampleWithin longestSample
    refine ⟨d, path, ?_⟩
    intro m' called
    obtain ⟨⟨audioSample, middle⟩, sampled, rest⟩ := bind_eq_ok.mp called
    obtain rfl := Except.ok.inj rest
    obtain ⟨last, ran, rest⟩ := bind_eq_ok.mp sampled
    obtain ⟨-, rfl⟩ := Prod.mk.inj (Except.ok.inj rest)
    exact ends last ran
  | runFrame =>
    unfold accessesIn tickingIn call runFrame
    dsimp only
    split
    · obtain ⟨d, path, ends⟩ := m.beginFrame.follows_runFrameWithin
        (max m.settings.frameGuardTicks.toNat 1)
      refine ⟨d, path.preceded rfl, ?_⟩
      intro m' called
      obtain ⟨⟨complete, middle⟩, ran, rest⟩ := bind_eq_ok.mp called
      obtain rfl := Except.ok.inj rest
      exact ends middle ⟨complete, ran⟩
    · exact .of_path (.nil _) fun m' called => by rw [← Except.ok.inj called]

/-- A run makes the accesses of its log, as far as it comes. -/
theorem follows_run (m : Machine κ π δ) (calls : List (Call κ π δ)) :
    m.Follows (m.accessLog calls) fun m' => calls.foldlM call m = .ok m' := by
  induction calls generalizing m with
  | nil => exact .of_path (.nil _) fun m' run => by rw [foldlM_nil_eq_ok.mp run]
  | cons first calls ih =>
    obtain ⟨d, path, ends⟩ := m.follows_call first
    rw [accessLog, runLog]
    cases called : m.call first with
    | error fault =>
      refine ⟨d, by simpa using path, ?_⟩
      intro m' ran
      obtain ⟨middle, moved, -⟩ := foldlM_cons_eq_ok.mp ran
      rw [called] at moved
      cases moved
    | ok middle =>
      obtain ⟨d', later, ends'⟩ := ih middle
      refine ⟨d', path.append (.besides (ends middle called) later), ?_⟩
      intro m' ran
      obtain ⟨middle', moved, rest⟩ := foldlM_cons_eq_ok.mp ran
      rw [called] at moved
      obtain rfl := Except.ok.inj moved
      exact ends' m' rest

end Machine

end Famicom
