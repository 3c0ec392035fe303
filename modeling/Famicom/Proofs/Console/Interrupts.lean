import Famicom.Bench.ScriptedProcessor
import Famicom.Proofs.Audio.SampleInterrupt
import Famicom.Proofs.Console.CartridgeRequest
import Famicom.Proofs.Console.Watching
import Famicom.Storage.Disk

/-!
# Interrupts

After the slot of a tick the console asks the picture unit for an interrupt, then the cartridge,
then the sound unit, and has the processor handle each before it asks for the next. A handler may
reach any device, so what is asked next is what the handlers before have left.

The request of a cartridge is withdrawn before it is handled, and none is left after the tick. The
request of the sound unit stays until the processor withdraws it, and is handled in every tick until
then.

## Main definitions

* `Happening.withdrawsIrq`, `LeavesIrq` — what withdraws the request of the sound unit, and logs
  without it
* `Machine.Operation.KeepsIrq` — what is done from outside withdraws no request
* `Machine.atNmi`, `Machine.atCartridgeIrq`, `Machine.atSoundIrq` — the console at its polls

## Main results

* `Devices.irqPending_perform` — what an access leaves of the request of the sound unit
* `Machine.irqPending_of_run` — a run that does not withdraw that request leaves it
* `Machine.interrupts_dispatched_once` — what a tick of any run has the processor handle
-/

namespace Famicom

open Audio

variable {κ π δ : Type} [PictureUnit π]

/-! ### The request of the sound unit -/

/-- An access withdraws the request of the sound unit. -/
def BusAccess.withdrawsIrq : BusAccess → Bool
  | .write address data => Synthesizer.withdrawsIrq address data
  | _ => false

/-- What happens withdraws the request of the sound unit. -/
def Happening.withdrawsIrq : Happening → Bool
  | .access _ made => made.withdrawsIrq
  | .reset => true
  | .slot _ _ => false

/-- Nothing in a log withdraws the request of the sound unit. -/
def LeavesIrq (log : List Happening) : Prop :=
  ∀ entry ∈ log, entry.withdrawsIrq = false

theorem leavesIrq_append {log more : List Happening} :
    LeavesIrq (log ++ more) ↔ LeavesIrq log ∧ LeavesIrq more :=
  List.forall_mem_append

/-- From outside the sound unit is used as it can be, and its request is not withdrawn. -/
def Machine.Operation.KeepsIrq : Machine.Operation κ π δ → Prop
  | .mapSound f =>
    ∃ ops : List Synthesizer.Operation, (∀ op ∈ ops, op.withdrawsIrq = false) ∧
      ∀ s, f s = ops.foldlM Synthesizer.apply s
  | _ => True

variable [FileStore δ]

namespace Devices

/-- An access withdraws the request of the sound unit or leaves it as it is. -/
theorem irqPending_perform (d : Devices π δ) (access : BusAccess) :
    (d.perform access).sound.irqPending = (d.sound.irqPending && !access.withdrawsIrq) := by
  cases access with
  | read address peek byte =>
    rw [perform, sound_read]
    exact (Bool.and_true _).symm
  | write address data =>
    rw [perform, sound_write]
    exact d.sound.irqPending_write address data
  | startCopy page address =>
    rw [perform, sound_write]
    exact d.sound.irqPending_write copierRegister page

omit [FileStore δ] in
/-- The copier writes to the picture unit. -/
theorem withdrawsIrq_of_copierAccess? {d : Devices π δ} {tick : UInt64} {access : BusAccess}
    (found : d.copierAccess? tick = some access) : access.withdrawsIrq = false := by
  unfold copierAccess? at found
  split at found
  · cases found
  · cases found
  · split at found
    · obtain rfl := Option.some.inj found
      rfl
    · obtain rfl := Option.some.inj found
      rfl

theorem irqPending_foldl_perform {d : Devices π δ} {accesses : List BusAccess}
    (keep : ∀ access ∈ accesses, access.withdrawsIrq = false)
    (pending : d.sound.irqPending = true) :
    (accesses.foldl perform d).sound.irqPending = true := by
  refine foldl_perform_invariant (P := fun d => d.sound.irqPending = true) ?_ pending
  intro access member d' before
  rw [irqPending_perform, before, keep access member]
  rfl

end Devices

namespace Machine

variable {m m' late : Machine κ π δ}

theorem irqPending_runProcessor {origin : Origin} {program : BusProgram κ}
    (keeps : LeavesIrq (m.programLog origin program))
    (pending : m.devices.sound.irqPending = true) :
    (m.runProcessor program).devices.sound.irqPending = true := by
  rw [devices_runProcessor]
  refine Devices.irqPending_foldl_perform (fun access member => ?_) pending
  exact keeps _ (List.mem_map_of_mem member)

omit [PictureUnit π] [FileStore δ] in
theorem irqPending_sampleAudio (m : Machine κ π δ) :
    m.sampleAudio.2.devices.sound.irqPending = m.devices.sound.irqPending := by
  obtain ⟨_, _, _, took⟩ := m.exists_sampleAudio
  rw [took]
  rfl

omit [FileStore δ] in
theorem irqPending_of_clockSound (clocked : m.clockPicture.clockSound = .ok late) :
    late.devices.sound.irqPending = m.devices.sound.irqPending := by
  obtain ⟨picture, cartridge, dotted⟩ := m.exists_clockPicture
  obtain ⟨sound, ticked, moved⟩ := bind_eq_ok.mp clocked
  obtain rfl := Except.ok.inj moved
  rw [dotted] at ticked
  exact Synthesizer.irqPending_of_clock ticked

variable [Processor κ]

theorem IsPoll.irqPending {log : List Happening} (poll : m.IsPoll log m')
    (keeps : LeavesIrq log) (pending : m.devices.sound.irqPending = true) :
    m'.devices.sound.irqPending = true := by
  cases poll with
  | quiet picture cartridge => exact pending
  | interrupt picture cartridge program handler => exact irqPending_runProcessor keeps pending

/-- What happens in the slot of a tick, if it has one. -/
def turnLog (m : Machine κ π δ) : List Happening :=
  if m.ticks % 3 = 0 then m.slotLog else []

/-- The copier writes to the picture unit, and the processor withdraws nothing unless the log says
so. -/
theorem withdrawsIrq_of_mem_slotAccesses (keeps : LeavesIrq m.slotLog) {access : BusAccess}
    (made : access ∈ m.slotAccesses) : access.withdrawsIrq = false := by
  unfold slotAccesses at made
  unfold slotLog at keeps
  cases use : m.devices.slotUse m.ticks with
  | copier found =>
    rw [use, Option.mem_toList] at made
    exact Devices.withdrawsIrq_of_copierAccess?
      ((Devices.eq_copierAccess?_of_slotUse use).symm.trans made)
  | fetch address byte =>
    rw [use, List.mem_singleton] at made
    rw [made]
    rfl
  | stall =>
    rw [use] at made
    cases made
  | processor =>
    rw [use] at made keeps
    exact keeps (.access .processor access) (List.mem_cons_of_mem _ (List.mem_map_of_mem made))

theorem irqPending_slot (keeps : LeavesIrq m.turnLog)
    (pending : m.devices.sound.irqPending = true) : m.slot.devices.sound.irqPending = true := by
  unfold turnLog at keeps
  unfold slot
  split at keeps
  · rename_i due
    rw [if_pos due]
    refine useSlot_invariant (P := fun d => d.sound.irqPending = true) ?_ ?_ ?_ pending
    · intro access made d before
      rw [d.irqPending_perform, before, withdrawsIrq_of_mem_slotAccesses keeps made]
      rfl
    · intro d byte before
      exact DeltaModulation.irqFlag_deliver before byte
    · intro d dma stall step log before
      exact before
  · rename_i idle
    rw [if_neg idle]
    exact pending

/-! ### The polls of a tick -/

/-- The console when the picture unit is polled, after its slot. -/
def atNmi (late : Machine κ π δ) : Machine κ π δ :=
  late.slot.sampleAudio.2

/-- The console when the cartridge is polled. -/
def atCartridgeIrq (late : Machine κ π δ) : Machine κ π δ :=
  late.atNmi.pollNmi

/-- The console when the sound unit is polled. -/
def atSoundIrq (late : Machine κ π δ) : Machine κ π δ :=
  late.atCartridgeIrq.pollCartridgeIrq

/-- What happens in a tick before the sound unit is polled. -/
def earlierLog (late : Machine κ π δ) : List Happening :=
  late.turnLog ++ (late.atNmi.nmiLog ++ late.atCartridgeIrq.cartridgeIrqLog)

theorem lateLog_eq (late : Machine κ π δ) :
    late.lateLog = late.earlierLog ++ late.atSoundIrq.soundIrqLog := by
  simp only [earlierLog, List.append_assoc]
  rfl

/-- A request of the sound unit lasts up to its poll. -/
theorem irqPending_atSoundIrq (keeps : LeavesIrq late.earlierLog)
    (pending : late.devices.sound.irqPending = true) :
    late.atSoundIrq.devices.sound.irqPending = true := by
  obtain ⟨slot, polls⟩ := leavesIrq_append.mp keeps
  obtain ⟨nmi, cartridge⟩ := leavesIrq_append.mp polls
  have atNmi : late.atNmi.devices.sound.irqPending = true :=
    (irqPending_sampleAudio _).trans (irqPending_slot slot pending)
  exact (isPoll_cartridgeIrq _).irqPending cartridge ((isPoll_nmi _).irqPending nmi atNmi)

/-- It also lasts through operations and runs that do not withdraw it. -/
theorem irqPending_of_apply {op : Operation κ π δ} (applied : m.apply op = .ok m')
    (outside : op.KeepsIrq) (keeps : LeavesIrq (m.happenings op))
    (pending : m.devices.sound.irqPending = true) : m'.devices.sound.irqPending = true := by
  cases op with
  | clock =>
    obtain ⟨late, clocked, rfl⟩ := apply_clock_eq_ok_iff.mp applied
    have told : m.happenings .clock = late.lateLog := by
      rw [happenings, clockLog, clocked]
    rw [told, lateLog_eq] at keeps
    obtain ⟨earlier, last⟩ := leavesIrq_append.mp keeps
    have before : late.devices.sound.irqPending = true :=
      (irqPending_of_clockSound clocked).trans pending
    exact (isPoll_soundIrq _).irqPending last (irqPending_atSoundIrq earlier before)
  | reset => cases keeps .reset (List.mem_append_right _ List.mem_cons_self)
  | load path =>
    rw [apply_load] at applied
    unfold happenings at keeps
    dsimp only at keeps
    split at applied
    · rename_i cartridge opened
      rw [opened] at keeps
      cases keeps .reset (List.mem_append_right _ List.mem_cons_self)
    · obtain rfl := Except.ok.inj applied
      exact pending
  | read address peek =>
    obtain rfl := Except.ok.inj applied
    exact (congrArg Synthesizer.irqPending (m.devices.sound_read address peek)).trans pending
  | write address data =>
    obtain rfl := Except.ok.inj applied
    have withdraws := keeps (.access .outside (m.devices.writeAccess address data))
      List.mem_cons_self
    have left := m.devices.irqPending_perform (m.devices.writeAccess address data)
    rw [Devices.perform_writeAccess, pending] at left
    exact left.trans (congrArg (fun withdrawn => true && !withdrawn) withdraws)
  | press number buttons =>
    obtain rfl := Except.ok.inj applied
    unfold press
    split <;> exact pending
  | mapSound f =>
    obtain ⟨ops, keep, used⟩ := outside
    obtain ⟨sound, ran, rest⟩ := bind_eq_ok.mp applied
    obtain rfl := Except.ok.inj rest
    exact Synthesizer.irqPending_of_run ((used _).symm.trans ran) keep pending
  | mapCartridge f =>
    obtain rfl := Except.ok.inj applied
    dsimp only [mapDevices]
    split <;> exact pending
  | insert _ | setSampleRate _ | mapProcessor _ | mapPicture _ =>
    obtain rfl := Except.ok.inj applied
    exact pending

theorem irqPending_of_run {ops : List (Operation κ π δ)} (ran : ops.foldlM apply m = .ok m')
    (outside : ∀ op ∈ ops, op.KeepsIrq) (keeps : LeavesIrq (m.log ops))
    (pending : m.devices.sound.irqPending = true) : m'.devices.sound.irqPending = true := by
  induction ops generalizing m with
  | nil =>
    obtain rfl := foldlM_nil_eq_ok.mp ran
    exact pending
  | cons op ops ih =>
    obtain ⟨middle, applied, rest⟩ := foldlM_cons_eq_ok.mp ran
    rw [log, runLog_cons_of_ok ops applied] at keeps
    obtain ⟨first, later⟩ := leavesIrq_append.mp keeps
    refine ih rest (fun op member => outside op (List.mem_cons_of_mem _ member)) later ?_
    exact irqPending_of_apply applied (outside op List.mem_cons_self) first pending

/-- A reset withdraws the request of the sound unit. -/
theorem irqPending_of_reset (reset : m.reset = .ok m') : m'.devices.sound.irqPending = false := by
  obtain ⟨sound, renewed, rest⟩ := bind_eq_ok.mp reset
  obtain rfl := Except.ok.inj rest
  exact Synthesizer.irqPending_of_reset renewed

/-! ### A tick of a run -/

/-- What a tick of a run has the processor do is told by its polls. -/
theorem foldlM_watchedBy_clock {start : Machine κ π δ} {ops : List (Operation κ π δ)}
    (ran : ops.foldlM apply start = .ok m) (clocked : m.clockPicture.clockSound = .ok late)
    (ticked : m.apply .clock = .ok m') (calls : List ProcessorCall) :
    ((ops ++ [Operation.clock]).map Operation.watched).foldlM apply (start.watchedBy calls) =
      .ok (m'.watchedBy (calls ++ start.callLog ops ++
        (late.slotCalls ++ late.atNmi.pollCalls))) := by
  have all : (ops ++ [Operation.clock]).foldlM apply start = .ok m' :=
    foldlM_append_eq_ok.mpr ⟨m, ran, foldlM_cons_eq_ok.mpr ⟨m', ticked, rfl⟩⟩
  have last : m.callLog [.clock] = late.slotCalls ++ late.atNmi.pollCalls := by
    rw [callLog, runLog_cons_of_ok [] ticked, Machine.calls, clockCalls, clocked]
    exact List.append_nil _
  rw [foldlM_watchedBy, all, callLog, runLog_append_of_ok [.clock] ran, List.append_assoc]
  exact congrArg (fun told => Except.ok (m'.watchedBy (calls ++ (start.callLog ops ++ told)))) last

/-- **Interrupts are dispatched once and in order.** Let the picture unit tell of scanlines in its
dots alone. In the next tick after any run, once picture and sound unit have moved, the processor
has its slot, and then handles what asks at its poll: the picture unit, the cartridge and the sound
unit, in this order, each once at most.

A request of the cartridge comes from before the slot, is withdrawn before it is handled, and none
is left after the tick. A request of the sound unit that is handled is handled again in every later
tick, unless a write to `$4015`, a write to `$4010` that switches the interrupt off, or a reset has
come in between; and these do withdraw it. -/
theorem interrupts_dispatched_once (scans : PictureUnit.ScansWhenClocked π)
    {start m late : Machine κ π δ} {ops : List (Operation κ π δ)}
    (ran : ops.foldlM apply start = .ok m) (clocked : m.clockPicture.clockSound = .ok late) :
    ∃ m', m.apply .clock = .ok m' ∧
      (∀ calls, ((ops ++ [Operation.clock]).map Operation.watched).foldlM apply (start.watchedBy calls) =
        .ok (m'.watchedBy (calls ++ start.callLog ops ++ (late.slotCalls ++
          (dispatch late.atNmi.devices.nmiEdge .nmi ++
            (dispatch late.atCartridgeIrq.devices.cartridgeIrq .irq ++
              dispatch late.atSoundIrq.devices.sound.irqPending .irq)))))) ∧
      (late.atCartridgeIrq.devices.cartridgeIrq = true →
        late.devices.cartridgeIrq = true ∧
        late.atCartridgeIrq.clearCartridgeIrq.devices.cartridgeIrq = false ∧
        late.atSoundIrq = late.atCartridgeIrq.clearCartridgeIrq.runProcessor
          (Processor.irq late.atCartridgeIrq.processor)) ∧
      m'.devices.cartridgeIrq = false ∧
      (late.atSoundIrq.devices.sound.irqPending = true →
        ∀ more s next, more.foldlM apply m' = .ok s → s.clockPicture.clockSound = .ok next →
          (∀ op ∈ more, op.KeepsIrq) →
          LeavesIrq (late.atSoundIrq.soundIrqLog ++ m'.log more ++ next.earlierLog) →
          next.atSoundIrq.devices.sound.irqPending = true) ∧
      (∀ (d : Devices π δ) access,
        (d.perform access).sound.irqPending = (d.sound.irqPending && !access.withdrawsIrq)) ∧
      ∀ s s' : Machine κ π δ, s.reset = .ok s' → s'.devices.sound.irqPending = false := by
  obtain ⟨m', ticked⟩ : ∃ m', m.apply .clock = .ok m' :=
    ⟨_, apply_clock_eq_ok_iff.mpr ⟨late, clocked, rfl⟩⟩
  obtain ⟨late', clocked', rfl⟩ := apply_clock_eq_ok_iff.mp ticked
  obtain rfl := Except.ok.inj (clocked.symm.trans clocked')
  refine ⟨_, ticked, foldlM_watchedBy_clock ran clocked ticked, ?_, ?_, ?_,
    Devices.irqPending_perform, fun _ _ => irqPending_of_reset⟩
  · intro pending
    refine ⟨?_, late.atCartridgeIrq.cartridgeIrq_clearCartridgeIrq, ?_⟩
    · have atNmi := cartridgeIrq_of_pollNmi scans pending
      exact cartridgeIrq_of_slot scans ((cartridgeIrq_sampleAudio _).symm.trans atNmi)
    · rw [atSoundIrq, pollCartridgeIrq_eq, if_pos pending]
  · -- No handler after the poll raises a request again.
    refine Bool.eq_false_iff.mpr fun again => ?_
    have before := cartridgeIrq_of_pollSoundIrq (m := late.atSoundIrq) scans again
    rw [atSoundIrq, cartridgeIrq_pollCartridgeIrq scans] at before
    cases before
  · intro pending more s next later clocked' outside keeps
    obtain ⟨both, earlier⟩ := leavesIrq_append.mp keeps
    obtain ⟨handler, between⟩ := leavesIrq_append.mp both
    have after : late.atSoundIrq.pollSoundIrq.devices.sound.irqPending = true :=
      (isPoll_soundIrq _).irqPending handler pending
    have reached := irqPending_of_run later outside between after
    exact irqPending_atSoundIrq earlier ((irqPending_of_clockSound clocked').trans reached)

/-- A cartridge that asks for an interrupt in the next scanline, and a sample of a single byte that
asks for one when it has come. -/
def armed : List (Operation Bench.ScriptedProcessor Bench.RegisterPicture Disk) :=
  [.insert (.blank fun banks => .mmc3 (.initial banks)), .write 0xC000 0, .write 0xE001 0,
    .write 0x4010 0x80, .write 0x4013 0, .write 0x4015 0x10]

/-- All three interrupts are asked for in one tick, whose slot goes to the sample byte. -/
theorem interrupts_dispatched_once_of_fetch :
    PictureUnit.ScansWhenClocked Bench.RegisterPicture ∧ ∃ start m m',
      initial {} { nmiLength := 1, scanlineLength := 1 } {} {} = .ok start ∧
      armed.foldlM apply start = .ok m ∧ m.apply .clock = .ok m' ∧
      ((armed ++ [Operation.clock]).map Operation.watched).foldlM apply (start.watchedBy []) =
        .ok (m'.watchedBy [.nmi, .irq, .irq]) ∧
      m'.devices.cartridgeIrq = false := by
  obtain ⟨start, made, m, ran, uncalled, late, clocked, slot, asked⟩ :
      ∃ start, initial {} { nmiLength := 1, scanlineLength := 1 } {} {} = .ok start ∧
        ∃ m, armed.foldlM apply start = .ok m ∧ start.callLog armed = [] ∧
        ∃ late, m.clockPicture.clockSound = .ok late ∧ late.slotCalls = [] ∧
        ∀ taps audioTime audioSample, pollCalls { late.slot with
          devices := { late.slot.devices with sound := { late.slot.devices.sound with taps } }
          audioTime, audioSample } = [.nmi, .irq, .irq] := by
    refine ⟨_, rfl, _, rfl, rfl, _, rfl, rfl, ?_⟩
    intro taps audioTime audioSample
    rfl
  obtain ⟨m', ticked, called, -, withdrawn, -⟩ :=
    interrupts_dispatched_once Bench.RegisterPicture.scansWhenClocked ran clocked
  refine ⟨Bench.RegisterPicture.scansWhenClocked, start, m, m', made, ran, ticked, ?_, withdrawn⟩
  obtain ⟨taps, audioTime, audioSample, took⟩ := late.slot.exists_sampleAudio
  have polled : late.atNmi.pollCalls = [.nmi, .irq, .irq] := by
    rw [atNmi, took]
    exact asked taps audioTime audioSample
  have all := called []
  rw [uncalled, slot] at all
  exact all.trans (congrArg (fun calls => Except.ok (m'.watchedBy calls)) polled)

end Machine

end Famicom
