import Famicom.Proofs.Console.CartridgeRequest
import Famicom.Proofs.Console.Listening

/-!
# Watching the processor

A processor is watched when it keeps the calls that the console has made of it, beside its own
state. It answers them as it did before, so nothing else changes: a console with a watched processor
does what it does without, and what is kept tells every call of a run in order.

## Main definitions

* `ProcessorCall` — what the console asks of a processor
* `Watched` — a processor with the calls so far
* `Machine.watchedBy`, `Machine.Operation.watched` — a console with a watched processor, and what is
  done to it
* `Machine.calls`, `Machine.callLog` — the calls of an operation and of a run

## Main results

* `Machine.clock_watchedBy`, `Machine.apply_watchedBy` — ticks and operations do the same to a
  console with a watched processor, which keeps their calls
* `Machine.foldlM_watchedBy` — so do runs
-/

namespace Famicom

variable {κ π δ : Type}

/-! ### Processors -/

/-- A program with another end. -/
def BusProgram.map {α β : Type} (f : α → β) : BusProgram α → BusProgram β
  | .done a => .done (f a)
  | .read address peek next => .read address peek fun byte => (next byte).map f
  | .write address data next => .write address data (next.map f)

theorem BusProgram.run_map [PictureUnit π] [FileStore δ] {α β : Type} (f : α → β)
    (program : BusProgram α) (d : Devices π δ) :
    (program.map f).run d = (f (program.run d).1, (program.run d).2) := by
  induction program generalizing d with
  | done a => rfl
  | read address peek next ih => exact ih _ _
  | write address data next ih => exact ih _

/-- What the console asks of a processor. -/
inductive ProcessorCall where
  | clock
  | reset
  | nmi
  | irq
  deriving DecidableEq, Repr

/-- A processor with the calls that were made of it, the first of them first. -/
structure Watched (κ : Type) where
  processor : κ
  calls : List ProcessorCall

/-- A call is kept when it has been answered. -/
def Watched.answer (w : Watched κ) (call : ProcessorCall) (handler : κ → BusProgram κ) :
    BusProgram (Watched κ) :=
  (handler w.processor).map fun processor => ⟨processor, w.calls ++ [call]⟩

instance [Processor κ] : Processor (Watched κ) where
  clock w := w.answer .clock Processor.clock
  reset w := w.answer .reset Processor.reset
  nmi w := w.answer .nmi Processor.nmi
  irq w := w.answer .irq Processor.irq
  instructions w := Processor.instructions w.processor

namespace Machine

/-- The console with a processor that is watched and has been called before. -/
def watchedBy (m : Machine κ π δ) (calls : List ProcessorCall) : Machine (Watched κ) π δ where
  processor := ⟨m.processor, calls⟩
  devices := m.devices
  settings := m.settings
  ticks := m.ticks
  audioTime := m.audioTime
  audioSample := m.audioSample

/-- The same done to a console with a watched processor. -/
def Operation.watched : Operation κ π δ → Operation (Watched κ) π δ
  | .clock => .clock
  | .reset => .reset
  | .insert cartridge => .insert cartridge
  | .load path => .load path
  | .read address peek => .read address peek
  | .write address data => .write address data
  | .press number buttons => .press number buttons
  | .setSampleRate rate => .setSampleRate rate
  | .mapProcessor f => .mapProcessor fun w => { w with processor := f w.processor }
  | .mapPicture f => .mapPicture f
  | .mapSound f => .mapSound f
  | .mapCartridge f => .mapCartridge f

/-! ### The calls -/

end Machine

namespace Devices

/-- The picture unit asks for an interrupt. -/
def nmiEdge [PictureUnit π] (d : Devices π δ) : Bool :=
  (PictureUnit.pollNmi d.picture).1

end Devices

namespace Machine

/-- The call in which an interrupt is dispatched, if it is asked for. -/
def dispatch (pending : Bool) (call : ProcessorCall) : List ProcessorCall :=
  if pending then [call] else []

section Calls

variable [Processor κ] [PictureUnit π] [FileStore δ]

/-- The call of the processor in its slot, if the tick has one and nothing else takes it. -/
def slotCalls (m : Machine κ π δ) : List ProcessorCall :=
  if m.ticks % 3 = 0 ∧ m.devices.slotUse m.ticks = .processor then [.clock] else []

/-- The calls in the polls of a tick. -/
def pollCalls (m : Machine κ π δ) : List ProcessorCall :=
  dispatch m.devices.nmiEdge .nmi ++
    (dispatch m.pollNmi.devices.cartridgeIrq .irq ++
      dispatch m.pollNmi.pollCartridgeIrq.devices.sound.irqPending .irq)

/-- The calls in a tick. -/
def clockCalls (m : Machine κ π δ) : List ProcessorCall :=
  match m.clockPicture.clockSound with
  | .ok late => late.slotCalls ++ late.slot.sampleAudio.2.pollCalls
  | .error _ => []

/-- The calls in an operation. -/
def calls (m : Machine κ π δ) : Operation κ π δ → List ProcessorCall
  | .clock => m.clockCalls
  | .reset => [.reset]
  | .load path =>
    match Cartridge.openFile path m.settings.saveDirectory m.devices.store with
    | .ok _ => [.reset]
    | .error _ => []
  | _ => []

/-- The calls in a run. -/
abbrev callLog (m : Machine κ π δ) (ops : List (Operation κ π δ)) : List ProcessorCall :=
  runLog apply calls ops m

end Calls

/-! ### Ticks -/

variable (m : Machine κ π δ) (calls : List ProcessorCall)

/-- Without an interrupt no call is made. -/
theorem watchedBy_quiet (call : ProcessorCall) :
    m.watchedBy calls = m.watchedBy (calls ++ dispatch false call) :=
  congrArg m.watchedBy (List.append_nil calls).symm

theorem sampleAudio_watchedBy :
    (m.watchedBy calls).sampleAudio =
      (m.sampleAudio.1, m.sampleAudio.2.watchedBy calls) := by
  have period : (m.watchedBy calls).samplePeriod = m.samplePeriod := rfl
  have time : (m.watchedBy calls).audioTime = m.audioTime := rfl
  unfold sampleAudio
  rw [period, time]
  dsimp only
  split <;> rfl

theorem clockSound_watchedBy :
    (m.watchedBy calls).clockSound = (·.watchedBy calls) <$> m.clockSound := by
  have same : (m.watchedBy calls).devices.sound = m.devices.sound := rfl
  rw [clockSound, clockSound, same]
  cases m.devices.sound.clock <;> rfl

variable [PictureUnit π]

theorem clockPicture_watchedBy :
    (m.watchedBy calls).clockPicture = m.clockPicture.watchedBy calls :=
  rfl

variable [FileStore δ]

/-- A call that is answered is kept. -/
theorem runProcessor_watchedBy (call : ProcessorCall) (handler : κ → BusProgram κ) :
    (m.watchedBy calls).runProcessor ((m.watchedBy calls).processor.answer call handler) =
      (m.runProcessor (handler m.processor)).watchedBy (calls ++ [call]) := by
  rw [runProcessor, Watched.answer, BusProgram.run_map]
  rfl

variable [Processor κ]

theorem slot_watchedBy :
    (m.watchedBy calls).slot = m.slot.watchedBy (calls ++ m.slotCalls) := by
  have use : (m.watchedBy calls).devices.slotUse (m.watchedBy calls).ticks =
    m.devices.slotUse m.ticks := rfl
  have turn : (m.watchedBy calls).ticks = m.ticks := rfl
  unfold slot slotCalls
  rw [turn]
  by_cases due : m.ticks % 3 = 0
  · rw [if_pos due, if_pos due, useSlot_eq, useSlot_eq, use]
    cases m.devices.slotUse m.ticks with
    | processor =>
      rw [if_pos ⟨due, rfl⟩]
      exact m.countInstructions.runProcessor_watchedBy calls .clock Processor.clock
    | copier _ | fetch _ _ | stall =>
      rw [if_neg (by simp), List.append_nil]
      rfl
  · rw [if_neg due, if_neg due, if_neg fun both => due both.1, List.append_nil]

theorem pollNmi_watchedBy :
    (m.watchedBy calls).pollNmi =
      m.pollNmi.watchedBy (calls ++ dispatch m.devices.nmiEdge .nmi) := by
  have polled : PictureUnit.pollNmi (m.watchedBy calls).devices.picture =
    PictureUnit.pollNmi m.devices.picture := rfl
  unfold pollNmi Devices.nmiEdge
  rw [polled]
  rcases PictureUnit.pollNmi m.devices.picture with ⟨_ | _, picture⟩
  · exact (m.mapDevices fun d => { d with picture }).watchedBy_quiet calls .nmi
  · exact (m.mapDevices fun d => { d with picture }).runProcessor_watchedBy calls .nmi Processor.nmi

theorem pollCartridgeIrq_watchedBy :
    (m.watchedBy calls).pollCartridgeIrq =
      m.pollCartridgeIrq.watchedBy (calls ++ dispatch m.devices.cartridgeIrq .irq) := by
  have same : (m.watchedBy calls).devices.cartridge = m.devices.cartridge := rfl
  unfold pollCartridgeIrq Devices.cartridgeIrq
  rw [same]
  cases m.devices.cartridge with
  | none => exact m.watchedBy_quiet calls .irq
  | some c =>
    rw [Option.any_some]
    dsimp only
    cases c.irqPending with
    | false => exact m.watchedBy_quiet calls .irq
    | true =>
      exact (m.mapDevices fun d => { d with cartridge := some c.clearIrq }).runProcessor_watchedBy
        calls .irq Processor.irq

theorem pollSoundIrq_watchedBy :
    (m.watchedBy calls).pollSoundIrq =
      m.pollSoundIrq.watchedBy (calls ++ dispatch m.devices.sound.irqPending .irq) := by
  have same : (m.watchedBy calls).devices.sound.irqPending = m.devices.sound.irqPending := rfl
  unfold pollSoundIrq
  rw [same]
  cases m.devices.sound.irqPending with
  | false => exact m.watchedBy_quiet calls .irq
  | true => exact m.runProcessor_watchedBy calls .irq Processor.irq

theorem poll_watchedBy :
    (m.watchedBy calls).poll = m.poll.watchedBy (calls ++ m.pollCalls) := by
  rw [poll, pollNmi_watchedBy, pollCartridgeIrq_watchedBy, pollSoundIrq_watchedBy, List.append_assoc,
    List.append_assoc]
  rfl

/-- A tick does the same with a watched processor, which keeps its calls. -/
theorem clock_watchedBy :
    (m.watchedBy calls).clock =
      (fun ticked => (ticked.1, ticked.2.watchedBy (calls ++ m.clockCalls))) <$> m.clock := by
  rw [clock_eq, clock_eq, clockPicture_watchedBy, clockSound_watchedBy, clockCalls]
  cases m.clockPicture.clockSound with
  | error fault => rfl
  | ok late =>
    change Except.ok _ = Except.ok _
    dsimp only
    rw [slot_watchedBy, sampleAudio_watchedBy, poll_watchedBy, List.append_assoc]
    rfl

/-! ### Runs -/

theorem reset_watchedBy :
    (m.watchedBy calls).reset = (·.watchedBy (calls ++ [.reset])) <$> m.reset := by
  have programmed : (m.watchedBy calls).resetProcessor =
      m.resetProcessor.watchedBy (calls ++ [.reset]) :=
    m.resetCartridge.runProcessor_watchedBy calls .reset Processor.reset
  have same : (m.resetProcessor.watchedBy (calls ++ [.reset])).devices.sound =
    m.resetProcessor.devices.sound := rfl
  rw [reset_eq, reset_eq, programmed, same]
  split <;> rfl

/-- So does whatever can be done to the console. -/
theorem apply_watchedBy (op : Operation κ π δ) :
    (m.watchedBy calls).apply op.watched =
      (·.watchedBy (calls ++ m.calls op)) <$> m.apply op := by
  -- Only ticks and resets call the processor.
  have silent {op : Operation κ π δ} (none : m.calls op = [])
      (same : (m.watchedBy calls).apply op.watched = (·.watchedBy calls) <$> m.apply op) :
      (m.watchedBy calls).apply op.watched =
        (·.watchedBy (calls ++ m.calls op)) <$> m.apply op := by
    rw [none, List.append_nil]
    exact same
  cases op with
  | clock =>
    change Prod.snd <$> (m.watchedBy calls).clock = _ <$> (Prod.snd <$> m.clock)
    rw [clock_watchedBy]
    cases m.clock <;> rfl
  | reset => exact m.reset_watchedBy calls
  | load path =>
    have known : Cartridge.openFile path (m.watchedBy calls).settings.saveDirectory
        (m.watchedBy calls).devices.store =
          Cartridge.openFile path m.settings.saveDirectory m.devices.store := rfl
    rw [Operation.watched, apply_load, apply_load, known, Machine.calls]
    cases Cartridge.openFile path m.settings.saveDirectory m.devices.store with
    | error error => exact congrArg Except.ok (m.watchedBy_quiet calls .reset)
    | ok cartridge => exact (m.insert cartridge).reset_watchedBy calls
  | press number buttons =>
    refine silent rfl ?_
    rw [Operation.watched, apply, apply, press, press]
    cases Player.ofNumber? number <;> rfl
  | mapSound f =>
    have same : (m.watchedBy calls).devices.sound = m.devices.sound := rfl
    refine silent rfl ?_
    rw [Operation.watched, apply, apply, same]
    cases f m.devices.sound <;> rfl
  | mapCartridge f =>
    refine silent rfl ?_
    obtain ⟨_, ⟨_, _, _, cartridge, _, _, _, _, _, _⟩, _, _, _, _⟩ := m
    cases cartridge <;> rfl
  | insert _ | read _ _ | write _ _ | setSampleRate _ | mapProcessor _ | mapPicture _ =>
    exact silent rfl rfl

/-- So does a run. -/
theorem foldlM_watchedBy (ops : List (Operation κ π δ)) :
    (ops.map .watched).foldlM apply (m.watchedBy calls) =
      (·.watchedBy (calls ++ m.callLog ops)) <$> ops.foldlM apply m := by
  induction ops generalizing m calls with
  | nil => exact congrArg Except.ok (m.watchedBy_quiet calls .clock)
  | cons op ops ih =>
    rw [List.map_cons, List.foldlM_cons, List.foldlM_cons, apply_watchedBy, callLog, runLog]
    cases m.apply op with
    | error fault => rfl
    | ok m' =>
      rw [← List.append_assoc]
      exact ih m' (calls ++ m.calls op)

end Machine

end Famicom
