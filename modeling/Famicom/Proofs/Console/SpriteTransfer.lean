import Mathlib.Tactic.Common
import Famicom.Bench.RegisterPicture
import Famicom.Bench.ScriptedProcessor
import Famicom.Proofs.Audio.PeriodRange
import Famicom.Proofs.Console.Run
import Famicom.Storage.Disk

/-!
# Transfers of sprite pages

A transfer takes one or two slots of the processor to align, so that it reads in slots at even ticks
and writes in slots at odd ones, and 512 more for the bytes of the page. Slots at even and at odd
ticks take turns. Nothing but another start or a reset comes between.

## Main definitions

* `nextSlotIsOdd` — whether the next slot falls on an odd tick
* `CopierPhase` — the copier, and where the next slot falls
* `CopierPhase.Obeys` — a log tells nothing that the copier would not do
* `Machine.CopierStep`, `Machine.CopiesNext` — a slot of the copier, and the tick that has it
* `transferUses` — the slots of a transfer

## Main results

* `Machine.obeys_log` — the log of a run tells nothing that the copier would not do
* `Machine.exists_copiesNext_of_log` — what the log tells of the copier, the devices went through
* `CopierPhase.exists_transfer` — such a log has a whole transfer after a start
* `Machine.spriteTransfer_of_log` — every start on the console is followed by a transfer
-/

namespace Famicom

/-- The next slot of the processor falls on an odd tick. -/
def nextSlotIsOdd (tick : UInt64) : Bool :=
  (tick.toNat + 2) / 3 % 2 = 1

theorem nextSlotIsOdd_of_slot {tick : UInt64} (slot : tick % 3 = 0) :
    tick.toNat % 2 = (nextSlotIsOdd tick).toNat := by
  have whole : tick.toNat % 3 = 0 := Audio.mod_eq_zero_iff_toNat.mp slot
  unfold nextSlotIsOdd
  generalize tick.toNat = n at whole
  by_cases odd : (n + 2) / 3 % 2 = 1
  · simp only [odd, decide_true, Bool.toNat_true]
    omega
  · simp only [odd, decide_false, Bool.toNat_false]
    omega

/-- Slots at even and at odd ticks take turns, also when the ticks start again from zero. -/
theorem nextSlotIsOdd_succ (tick : UInt64) :
    nextSlotIsOdd (tick + 1) =
      if tick % 3 = 0 then !nextSlotIsOdd tick else nextSlotIsOdd tick := by
  by_cases last : tick.toNat + 1 < 2 ^ 64
  · have next : (tick + 1).toNat = tick.toNat + 1 := by
      rw [UInt64.toNat_add]
      exact Nat.mod_eq_of_lt last
    have third : tick % 3 = 0 ↔ tick.toNat % 3 = 0 := Audio.mod_eq_zero_iff_toNat
    unfold nextSlotIsOdd
    rw [next]
    clear last next
    generalize tick.toNat = n at third
    split
    · rename_i slot
      have whole := third.mp slot
      rw [← decide_not, decide_eq_decide]
      omega
    · rename_i other
      have part : ¬ n % 3 = 0 := fun whole => other (third.mpr whole)
      rw [decide_eq_decide]
      omega
  · -- The last tick is a slot, and an odd one.
    obtain rfl : tick = 0xFFFFFFFFFFFFFFFF := by
      have small := tick.toNat_lt
      rw [← UInt64.toNat_inj]
      exact Nat.le_antisymm (Nat.le_of_lt_succ small) (Nat.le_of_lt_succ (Nat.not_lt.mp last))
    decide

/-- The copier, and whether the next slot falls on an odd tick. -/
structure CopierPhase where
  dma : SpriteDma
  odd : Bool

namespace CopierPhase

/-- The copier would do this. -/
def Allows (p : CopierPhase) : Happening → Prop
  | .slot tick use =>
    tick.toNat % 2 = p.odd.toNat ∧
      match p.dma with
      | .idle => use.isCopier = false
      | .aligning _ _ => use = .copier none
      | .copying page address _ data =>
        if p.odd then use = .copier (some (.write 0x2004 data))
        else ∃ byte, use = .copier (some (.read (SpriteDma.source page address) false byte))
  | _ => True

/-- The copier after a slot. -/
def stepDma (p : CopierPhase) (use : SlotUse) : SpriteDma :=
  match p.dma with
  | .idle => .idle
  | .aligning page address =>
    if p.odd then .copying page address address 0 else .aligning page address
  | .copying page address start data =>
    if p.odd then
      if address + 1 = start then .idle else .copying page (address + 1) start data
    else
      match use with
      | .copier (some (.read _ _ byte)) => .copying page address start byte
      | _ => .copying page address start data

/-- The phase after something happened. -/
def after (p : CopierPhase) : Happening → CopierPhase
  | .slot _ use => ⟨p.stepDma use, !p.odd⟩
  | .access _ (.startCopy page address) => ⟨.aligning page address, p.odd⟩
  | .access _ _ => p
  | .reset => ⟨.idle, false⟩

/-- From this phase on, the log tells nothing that the copier would not do. -/
def Obeys (p : CopierPhase) : List Happening → Prop
  | [] => True
  | happening :: log => p.Allows happening ∧ (p.after happening).Obeys log

theorem obeys_append {p : CopierPhase} {log log' : List Happening} :
    p.Obeys (log ++ log') ↔ p.Obeys log ∧ (log.foldl after p).Obeys log' := by
  induction log generalizing p with
  | nil => simp [Obeys]
  | cons happening log ih => simp [Obeys, ih, and_assoc]

/-- Accesses obey any copier. -/
theorem obeys_accesses (p : CopierPhase) (origin : Origin) (accesses : List BusAccess) :
    p.Obeys (accesses.map (.access origin)) := by
  induction accesses generalizing p with
  | nil => trivial
  | cons access accesses ih => exact ⟨trivial, ih _⟩

end CopierPhase

/-! ### The console as a copier -/

section Console

open CopierPhase

variable {κ π δ : Type} [PictureUnit π] [FileStore δ]

theorem CopierPhase.after_writeAccess (d : Devices π δ) (odd : Bool) (origin : Origin)
    (address : UInt16) (data : UInt8) :
    (⟨d.dma, odd⟩ : CopierPhase).after (.access origin (d.writeAccess address data)) =
      ⟨(d.write address data).dma, odd⟩ := by
  unfold Devices.writeAccess
  split
  · rename_i same
    rw [same, Devices.dma_write_copierRegister]
    rfl
  · rename_i other
    rw [d.dma_write_of_ne data other]
    rfl

/-- The accesses of a program tell what it does to the copier. -/
theorem CopierPhase.foldl_after_accesses {α : Type} (program : BusProgram α) (d : Devices π δ)
    (odd : Bool) (origin : Origin) :
    ((program.accesses d).map (.access origin)).foldl after ⟨d.dma, odd⟩ =
      ⟨(program.run d).2.dma, odd⟩ := by
  induction program generalizing d with
  | done a => rfl
  | read address peek next ih =>
    -- A read tells nothing to the copier, and does nothing to it.
    have kept : (d.read address peek).2.dma = d.dma := d.dma_read address peek
    rw [BusProgram.accesses, List.map_cons, List.foldl_cons, BusProgram.run]
    have rest := ih (d.read address peek).1 (d.read address peek).2
    rw [kept] at rest
    exact rest
  | write address data next ih =>
    rw [BusProgram.accesses, List.map_cons, List.foldl_cons, after_writeAccess, BusProgram.run]
    exact ih (d.write address data)

namespace Machine

/-- The copier of the console, and where its next slot falls. -/
def copierPhase (m : Machine κ π δ) : CopierPhase :=
  ⟨m.devices.dma, nextSlotIsOdd m.ticks⟩

theorem foldl_after_programLog (m : Machine κ π δ) (odd : Bool) (origin : Origin)
    (program : BusProgram κ) :
    (m.programLog origin program).foldl after ⟨m.devices.dma, odd⟩ =
      ⟨(m.runProcessor program).devices.dma, odd⟩ :=
  foldl_after_accesses program m.devices odd origin

theorem obeys_programLog (m : Machine κ π δ) (p : CopierPhase) (origin : Origin)
    (program : BusProgram κ) : p.Obeys (m.programLog origin program) :=
  p.obeys_accesses origin _

variable [Processor κ]

theorem IsPoll.foldl_after {m m' : Machine κ π δ} {log : List Happening} (h : m.IsPoll log m')
    (odd : Bool) : log.foldl after ⟨m.devices.dma, odd⟩ = ⟨m'.devices.dma, odd⟩ := by
  cases h with
  | quiet picture cartridge => rfl
  | interrupt picture cartridge program handler =>
    exact (m.mapDevices fun d => { d with picture, cartridge }).foldl_after_programLog odd _ program

theorem IsPoll.obeys {m m' : Machine κ π δ} {log : List Happening} (h : m.IsPoll log m')
    (p : CopierPhase) : p.Obeys log := by
  cases h with
  | quiet picture cartridge => trivial
  | interrupt picture cartridge program handler => exact obeys_programLog _ _ _ _

end Machine

namespace Devices

variable {d : Devices π δ} {tick : UInt64} {odd : Bool}

/-- The copier steps as its phase tells. -/
theorem dma_stepSpriteDma (parity : tick % 2 = if odd then 1 else 0) :
    (d.stepSpriteDma tick).dma =
      (⟨d.dma, odd⟩ : CopierPhase).stepDma (.copier (d.copierAccess? tick)) := by
  unfold stepSpriteDma copierAccess? stepDma
  rw [parity]
  cases dma : d.dma with
  | idle => exact dma
  | aligning page address =>
    cases odd with
    | true => rfl
    | false => exact dma
  | copying page address start data =>
    cases odd with
    | true =>
      have uneven : ¬ (1 : UInt64) = 0 := by decide
      simp only [if_true, uneven, if_false]
      split <;> rfl
    | false => rfl

omit [FileStore δ] in
/-- The access of the copier is the one that its phase allows. -/
theorem allows_copierAccess? (parity : tick % 2 = if odd then 1 else 0)
    (active : d.dma.isActive = true) :
    match d.dma with
    | .idle => (SlotUse.copier (d.copierAccess? tick)).isCopier = false
    | .aligning _ _ => SlotUse.copier (d.copierAccess? tick) = .copier none
    | .copying page address _ data =>
      if odd then SlotUse.copier (d.copierAccess? tick) = .copier (some (.write 0x2004 data))
      else ∃ byte, SlotUse.copier (d.copierAccess? tick) =
        .copier (some (.read (SpriteDma.source page address) false byte)) := by
  unfold copierAccess?
  rw [parity]
  cases dma : d.dma with
  | idle => rw [dma] at active; cases active
  | aligning page address => rfl
  | copying page address start data =>
    cases odd with
    | true => rfl
    | false => exact ⟨_, rfl⟩

end Devices

namespace Machine

variable [Processor κ]

theorem foldl_after_pollLog (m : Machine κ π δ) (odd : Bool) :
    m.pollLog.foldl after ⟨m.devices.dma, odd⟩ = ⟨m.poll.devices.dma, odd⟩ := by
  rw [pollLog, List.foldl_append, List.foldl_append, m.isPoll_nmi.foldl_after,
    m.pollNmi.isPoll_cartridgeIrq.foldl_after,
    m.pollNmi.pollCartridgeIrq.isPoll_soundIrq.foldl_after]
  rfl

theorem obeys_pollLog (m : Machine κ π δ) (p : CopierPhase) : p.Obeys m.pollLog :=
  obeys_append.mpr ⟨m.isPoll_nmi.obeys _, obeys_append.mpr
    ⟨m.pollNmi.isPoll_cartridgeIrq.obeys _, m.pollNmi.pollCartridgeIrq.isPoll_soundIrq.obeys _⟩⟩

omit [Processor κ] [PictureUnit π] [FileStore δ] in
theorem mod_two_of_slot {m : Machine κ π δ} (slot : m.ticks % 3 = 0) :
    m.ticks % 2 = if m.copierPhase.odd then 1 else 0 := by
  have parity := nextSlotIsOdd_of_slot slot
  rw [← UInt64.toNat_inj, UInt64.toNat_mod]
  change m.ticks.toNat % 2 = _
  rw [parity]
  unfold copierPhase
  cases nextSlotIsOdd m.ticks <;> rfl

/-- A slot that the copier does not want. -/
theorem obeys_slotLog_of_idle {m : Machine κ π δ} (slot : m.ticks % 3 = 0)
    (idle : m.devices.dma = .idle) :
    m.copierPhase.Obeys m.slotLog ∧
      m.slotLog.foldl after m.copierPhase = ⟨m.useSlot.devices.dma, !m.copierPhase.odd⟩ := by
  have phase : m.copierPhase = ⟨.idle, nextSlotIsOdd m.ticks⟩ := by rw [copierPhase, idle]
  have parity := nextSlotIsOdd_of_slot slot
  rw [phase, slotLog, useSlot_eq]
  cases use : m.devices.slotUse m.ticks with
  | copier access =>
    -- An idle copier has no slot.
    unfold Devices.slotUse at use
    rw [idle, if_neg (by decide)] at use
    split at use
    · cases use
    · split at use <;> cases use
  | fetch address byte =>
    refine ⟨⟨⟨parity, rfl⟩, trivial⟩, ?_⟩
    change (⟨.idle, _⟩ : CopierPhase) = ⟨(m.devices.read address false).2.dma, _⟩
    rw [Devices.dma_read, idle]
  | stall =>
    refine ⟨⟨⟨parity, rfl⟩, trivial⟩, ?_⟩
    change (⟨.idle, _⟩ : CopierPhase) = ⟨m.devices.dma, _⟩
    rw [idle]
  | processor =>
    rw [if_pos rfl]
    refine ⟨⟨⟨parity, rfl⟩, obeys_programLog _ _ _ _⟩, ?_⟩
    have run := m.countInstructions.foldl_after_programLog (!nextSlotIsOdd m.ticks) .processor
      (Processor.clock m.processor)
    rw [show m.countInstructions.devices.dma = .idle from idle] at run
    exact run

theorem slotLog_of_active {m : Machine κ π δ} (active : m.devices.dma.isActive = true) :
    m.slotLog = [.slot m.ticks (.copier (m.devices.copierAccess? m.ticks))] := by
  have use : m.devices.slotUse m.ticks = .copier (m.devices.copierAccess? m.ticks) := if_pos active
  rw [slotLog, use]
  rfl

/-- A slot that the copier has. -/
theorem obeys_slotLog_of_active {m : Machine κ π δ} (slot : m.ticks % 3 = 0)
    (active : m.devices.dma.isActive = true) :
    m.copierPhase.Obeys m.slotLog ∧
      m.slotLog.foldl after m.copierPhase = ⟨m.useSlot.devices.dma, !m.copierPhase.odd⟩ := by
  have steps : m.useSlot.devices.dma = (m.devices.stepSpriteDma m.ticks).dma := by
    rw [useSlot, if_pos active]
    rfl
  rw [slotLog_of_active active, steps, Devices.dma_stepSpriteDma (mod_two_of_slot slot)]
  exact ⟨⟨⟨nextSlotIsOdd_of_slot slot, Devices.allows_copierAccess? (mod_two_of_slot slot) active⟩,
    trivial⟩, rfl⟩

theorem obeys_slotLog {m : Machine κ π δ} (slot : m.ticks % 3 = 0) :
    m.copierPhase.Obeys m.slotLog ∧
      m.slotLog.foldl after m.copierPhase = ⟨m.useSlot.devices.dma, !m.copierPhase.odd⟩ := by
  cases dma : m.devices.dma with
  | idle => exact obeys_slotLog_of_idle slot dma
  | aligning _ _ | copying _ _ _ _ => exact obeys_slotLog_of_active slot (by rw [dma]; rfl)

omit [Processor κ] [PictureUnit π] [FileStore δ] in
theorem dma_sampleAudio (m : Machine κ π δ) : m.sampleAudio.2.devices.dma = m.devices.dma := by
  obtain ⟨_, _, _, sampled⟩ := m.exists_sampleAudio
  rw [sampled]

/-- What follows picture and sound unit in a tick. -/
theorem obeys_lateLog (m : Machine κ π δ) :
    m.copierPhase.Obeys m.lateLog ∧
      m.lateLog.foldl after m.copierPhase =
        ⟨m.slot.sampleAudio.2.poll.devices.dma, nextSlotIsOdd (m.ticks + 1)⟩ := by
  have polls := m.slot.sampleAudio.2.foldl_after_pollLog (nextSlotIsOdd (m.ticks + 1))
  rw [dma_sampleAudio] at polls
  by_cases slot : m.ticks % 3 = 0
  · -- The slot turns the phase as the tick does.
    obtain ⟨obeys, moved⟩ := obeys_slotLog slot
    have turn : (!m.copierPhase.odd) = nextSlotIsOdd (m.ticks + 1) := by
      rw [nextSlotIsOdd_succ, if_pos slot]
      rfl
    have used : m.slot = m.useSlot := if_pos slot
    rw [turn, ← used] at moved
    rw [lateLog, if_pos slot, List.foldl_append, moved, polls, obeys_append]
    exact ⟨⟨obeys, obeys_pollLog _ _⟩, rfl⟩
  · have still : m.copierPhase = ⟨m.slot.devices.dma, nextSlotIsOdd (m.ticks + 1)⟩ := by
      rw [nextSlotIsOdd_succ, if_neg slot, show m.slot = m from if_neg slot]
      rfl
    rw [lateLog, if_neg slot, List.nil_append, still, polls]
    exact ⟨obeys_pollLog _ _, rfl⟩

omit [Processor κ] [FileStore δ] in
/-- Picture and sound unit know nothing of the copier. -/
theorem copierPhase_of_clockSound {m late : Machine κ π δ}
    (clocked : m.clockPicture.clockSound = .ok late) : late.copierPhase = m.copierPhase := by
  obtain ⟨_, _, _, rfl⟩ := exists_of_clockSound clocked
  rfl

theorem copierPhase_of_reset {m m' : Machine κ π δ} (run : m.reset = .ok m') :
    m'.copierPhase = ⟨.idle, false⟩ := by
  obtain ⟨sound, -, made⟩ := bind_eq_ok.mp run
  obtain rfl := Except.ok.inj made
  exact congrArg (CopierPhase.mk .idle) (by decide : nextSlotIsOdd 0 = false)

theorem obeys_resetLog (m : Machine κ π δ) (p : CopierPhase) :
    p.Obeys m.resetLog ∧ m.resetLog.foldl after p = ⟨.idle, false⟩ := by
  rw [resetLog, obeys_append, List.foldl_append]
  exact ⟨⟨obeys_programLog _ _ _ _, trivial, trivial⟩, rfl⟩

/-- The log of an operation tells nothing that the copier would not do. -/
theorem obeys_happenings (m : Machine κ π δ) (op : Operation κ π δ) :
    m.copierPhase.Obeys (m.happenings op) := by
  cases op with
  | clock =>
    unfold happenings clockLog
    cases clocked : m.clockPicture.clockSound with
    | error fault => trivial
    | ok late =>
      rw [← copierPhase_of_clockSound clocked]
      exact (obeys_lateLog late).1
  | reset => exact (obeys_resetLog m _).1
  | load path =>
    unfold happenings
    dsimp only
    cases Cartridge.openFile path m.settings.saveDirectory m.devices.store with
    | ok cartridge => exact (obeys_resetLog (m.insert cartridge) _).1
    | error error => trivial
  | read address peek | write address data => exact ⟨trivial, trivial⟩
  | insert _ | press _ _ | setSampleRate _ | mapProcessor _ | mapPicture _ | mapSound _
  | mapCartridge _ => trivial

/-- The log of an operation tells what it does to the copier. -/
theorem copierPhase_apply {m m' : Machine κ π δ} {op : Operation κ π δ}
    (run : m.apply op = .ok m') :
    m'.copierPhase = (m.happenings op).foldl after m.copierPhase := by
  cases op with
  | clock =>
    -- All that is told in a tick is told after picture and sound unit have moved.
    obtain ⟨late, clocked, rfl⟩ := apply_clock_eq_ok_iff.mp run
    have log : m.happenings .clock = late.lateLog := by
      change m.clockLog = _
      rw [clockLog, clocked]
    rw [log, ← copierPhase_of_clockSound clocked, (obeys_lateLog late).2]
    unfold copierPhase
    simp
  | reset => rw [copierPhase_of_reset run]; exact (obeys_resetLog m _).2.symm
  | load path =>
    rw [apply_load] at run
    unfold happenings
    dsimp only
    cases found : Cartridge.openFile path m.settings.saveDirectory m.devices.store with
    | ok cartridge =>
      rw [found] at run
      rw [copierPhase_of_reset run]
      exact (obeys_resetLog _ _).2.symm
    | error error =>
      rw [found] at run
      obtain rfl := Except.ok.inj run
      rfl
  | read address peek =>
    obtain rfl := Except.ok.inj run
    change (⟨(m.devices.read address peek).2.dma, _⟩ : CopierPhase) = m.copierPhase
    rw [Devices.dma_read]
    rfl
  | write address data =>
    obtain rfl := Except.ok.inj run
    exact (CopierPhase.after_writeAccess m.devices _ .outside address data).symm
  | press number buttons =>
    obtain rfl := Except.ok.inj run
    unfold press
    split <;> rfl
  | mapSound f =>
    obtain ⟨sound, -, made⟩ := bind_eq_ok.mp run
    obtain rfl := Except.ok.inj made
    rfl
  | mapCartridge f =>
    obtain rfl := Except.ok.inj run
    unfold copierPhase mapDevices
    dsimp only
    split <;> rfl
  | insert _ | setSampleRate _ | mapProcessor _ | mapPicture _ =>
    obtain rfl := Except.ok.inj run
    rfl

/-- The log of a run tells nothing that the copier would not do. -/
theorem obeys_log (m : Machine κ π δ) (ops : List (Operation κ π δ)) :
    m.copierPhase.Obeys (m.log ops) := by
  -- After each operation the phase that its log leads to is that of the console.
  induction ops generalizing m with
  | nil => trivial
  | cons op ops ih =>
    rw [log, runLog, obeys_append]
    refine ⟨m.obeys_happenings op, ?_⟩
    cases run : m.apply op with
    | error fault => trivial
    | ok m' =>
      rw [← copierPhase_apply run]
      exact ih m'

end Machine

end Console

/-! ### Transfers -/

namespace Happening

/-- The use of a slot. -/
def use? : Happening → Option SlotUse
  | .slot _ use => some use
  | _ => none

/-- The copier starts anew or stops. -/
def disturbs : Happening → Bool
  | .access _ (.startCopy _ _) => true
  | .reset => true
  | _ => false

end Happening

/-- The uses of the slots of a log. -/
def slotUses (log : List Happening) : List SlotUse :=
  log.filterMap (·.use?)

/-- The first slot of a log falls on an odd tick. -/
def startsOdd : List Happening → Bool
  | [] => false
  | .slot tick _ :: _ => tick % 2 = 1
  | _ :: log => startsOdd log

section Slots

variable {κ π δ : Type} [Processor κ] [PictureUnit π] [FileStore δ]

namespace Machine

omit [Processor κ] in
theorem use?_of_mem_programLog {m : Machine κ π δ} {origin : Origin} {program : BusProgram κ} :
    ∀ happening ∈ m.programLog origin program, happening.use? = none := by
  intro happening member
  obtain ⟨access, -, rfl⟩ := List.mem_map.mp member
  rfl

theorem use?_of_mem_resetLog {m : Machine κ π δ} :
    ∀ happening ∈ m.resetLog, happening.use? = none :=
  List.forall_mem_append.mpr ⟨use?_of_mem_programLog, List.forall_mem_singleton.mpr rfl⟩

theorem IsPoll.use?_of_mem {m m' : Machine κ π δ} {log : List Happening} (h : m.IsPoll log m') :
    ∀ happening ∈ log, happening.use? = none := by
  cases h with
  | quiet picture cartridge => exact List.forall_mem_nil _
  | interrupt picture cartridge program handler => exact use?_of_mem_programLog

theorem use?_of_mem_pollLog {m : Machine κ π δ} :
    ∀ happening ∈ m.pollLog, happening.use? = none :=
  List.forall_mem_append.mpr ⟨m.isPoll_nmi.use?_of_mem, List.forall_mem_append.mpr
    ⟨m.pollNmi.isPoll_cartridgeIrq.use?_of_mem,
      m.pollNmi.pollCartridgeIrq.isPoll_soundIrq.use?_of_mem⟩⟩

/-- Nothing but a tick has a slot. -/
theorem use?_of_mem_happenings {m : Machine κ π δ} {op : Operation κ π δ} (other : op ≠ .clock) :
    ∀ happening ∈ m.happenings op, happening.use? = none := by
  cases op with
  | clock => exact absurd rfl other
  | reset => exact use?_of_mem_resetLog
  | load path =>
    unfold happenings
    dsimp only
    cases Cartridge.openFile path m.settings.saveDirectory m.devices.store with
    | ok cartridge => exact use?_of_mem_resetLog
    | error error => exact List.forall_mem_nil _
  | read _ _ | write _ _ => exact List.forall_mem_singleton.mpr rfl
  | insert _ | press _ _ | setSampleRate _ | mapProcessor _ | mapPicture _ | mapSound _
  | mapCartridge _ => exact List.forall_mem_nil _

/-- What a tick tells of its slot comes first. -/
theorem slot_of_lateLog {m : Machine κ π δ} {front back : List Happening} {tick : UInt64}
    {use : SlotUse} (told : m.lateLog = front ++ .slot tick use :: back) :
    front = [] ∧ m.ticks = tick ∧ m.ticks % 3 = 0 ∧ m.devices.slotUse m.ticks = use := by
  have here : Happening.slot tick use ∈ m.lateLog :=
    told ▸ List.mem_append_right _ List.mem_cons_self
  by_cases due : m.ticks % 3 = 0
  · -- The clock of the processor and the polls tell accesses alone.
    rw [lateLog, if_pos due, slotLog, List.cons_append] at told
    cases front with
    | nil =>
      obtain ⟨same, -⟩ := List.cons.inj told
      obtain ⟨ticks, used⟩ := Happening.slot.inj same
      exact ⟨rfl, ticks, due, used⟩
    | cons first front =>
      rw [List.cons_append] at told
      have later : Happening.slot tick use ∈ front ++ .slot tick use :: back :=
        List.mem_append_right front List.mem_cons_self
      rw [← (List.cons.inj told).2] at later
      rcases List.mem_append.mp later with clocked | polled
      · split at clocked
        · cases use?_of_mem_programLog _ clocked
        · cases clocked
      · cases use?_of_mem_pollLog _ polled
  · rw [lateLog, if_neg due, List.nil_append] at here
    cases use?_of_mem_pollLog _ here

/-- In a slot of the copier its access is made and nothing else: a read tells the byte that it
gives, the devices are as the access leaves them, but for the copier and the event log, and the
processor has no clock. -/
structure CopierStep (m : Machine κ π δ) (access : Option BusAccess) (m' : Machine κ π δ) :
    Prop where
  tells : ∀ source byte, access = some (.read source false byte) →
    byte = (m.devices.read source false).1
  performs : ∃ dma log, m' =
    { m with devices := { access.elim m.devices m.devices.perform with dma, log } }

theorem copierStep_slot {m : Machine κ π δ} {access : Option BusAccess} (due : m.ticks % 3 = 0)
    (use : m.devices.slotUse m.ticks = .copier access) : m.CopierStep access m.slot := by
  have own := Devices.eq_copierAccess?_of_slotUse use
  refine ⟨fun source byte read => ?_, ?_⟩
  · rw [own, Devices.copierAccess?] at read
    split at read
    · cases read
    · cases read
    · split at read
      · obtain ⟨rfl, -, rfl⟩ := BusAccess.read.inj (Option.some.inj read)
        rfl
      · cases Option.some.inj read
  · obtain ⟨dma, log, stepped⟩ := m.devices.exists_stepSpriteDma m.ticks
    refine ⟨dma, log, ?_⟩
    rw [slot, if_pos due, useSlot_eq, use, own, ← stepped]
    rfl

/-- The next tick has this number, and a slot in which the copier makes this access. The polls that
follow in the tick may still interrupt the processor. -/
def CopiesNext (m : Machine κ π δ) (tick : UInt64) (access : Option BusAccess) : Prop :=
  ∃ late copied, m.clockPicture.clockSound = .ok late ∧ late.ticks = tick ∧
    late.CopierStep access copied ∧
    m.clock = .ok (copied.sampleAudio.1,
      { copied.sampleAudio.2.poll with ticks := copied.sampleAudio.2.poll.ticks + 1 })

/-- When the log tells a slot of the copier, the run has come to the tick of that slot. -/
theorem exists_copiesNext_of_log {m : Machine κ π δ} {ops : List (Operation κ π δ)}
    {told later : List Happening} {tick : UInt64} {access : Option BusAccess}
    (split : m.log ops = told ++ .slot tick (.copier access) :: later) :
    ∃ earlier rest s, ops = earlier ++ .clock :: rest ∧ m.log earlier = told ∧
      earlier.foldlM apply m = .ok s ∧ s.CopiesNext tick access := by
  obtain ⟨earlier, op, rest, s, front, back, rfl, run, here, before⟩ :=
    exists_visit_of_runLog split
  have tells : Happening.slot tick (.copier access) ∈ s.happenings op :=
    here ▸ List.mem_append_right _ List.mem_cons_self
  obtain rfl : op = .clock := by
    by_contra other
    cases use?_of_mem_happenings other _ tells
  change s.clockLog = _ at here
  unfold clockLog at here
  cases clocked : s.clockPicture.clockSound with
  | error fault =>
    rw [clocked] at here
    exact absurd here.symm (List.append_ne_nil_of_right_ne_nil front (List.cons_ne_nil _ _))
  | ok late =>
    rw [clocked] at here
    obtain ⟨rfl, ticks, due, use⟩ := slot_of_lateLog here
    rw [List.append_nil] at before
    refine ⟨earlier, rest, s, rfl, before, run, late, late.slot, clocked, ticks,
      copierStep_slot due use, ?_⟩
    rw [clock_eq, clocked]
    rfl

end Machine

end Slots

/-- Where the byte with a number is read, counted from the sprite address. -/
def transferSource (page address : UInt8) (number : Nat) : UInt16 :=
  UInt16.ofNat (page.toNat * 256 + (address.toNat + number) % 256)

/-- The two slots of a byte: it is read in one and written in the other. -/
def byteUses (page address : UInt8) (number : Nat) (byte : UInt8) : List SlotUse :=
  [.copier (some (.read (transferSource page address number) false byte)),
    .copier (some (.write 0x2004 byte))]

/-- The slots of the bytes from a number on. -/
def pageUses (page address : UInt8) : Nat → List UInt8 → List SlotUse
  | _, [] => []
  | number, byte :: bytes =>
    byteUses page address number byte ++ pageUses page address (number + 1) bytes

/-- The slots of a transfer, the first of which falls on an odd tick or on an even one. -/
def transferUses (odd : Bool) (page address : UInt8) (bytes : List UInt8) : List SlotUse :=
  List.replicate (if odd then 1 else 2) (.copier none) ++ pageUses page address 0 bytes

theorem length_pageUses (page address : UInt8) (number : Nat) (bytes : List UInt8) :
    (pageUses page address number bytes).length = 2 * bytes.length := by
  induction bytes generalizing number with
  | nil => rfl
  | cons byte bytes ih =>
    rw [pageUses, List.length_append, ih, List.length_cons]
    simp only [byteUses, List.length_cons, List.length_nil]
    omega

theorem length_transferUses (odd : Bool) (page address : UInt8) {bytes : List UInt8}
    (page_length : bytes.length = 256) :
    (transferUses odd page address bytes).length = if odd then 513 else 514 := by
  rw [transferUses, List.length_append, List.length_replicate, length_pageUses, page_length]
  cases odd <;> rfl

theorem source_add (page address : UInt8) (number : Nat) :
    SpriteDma.source page (address + UInt8.ofNat number) = transferSource page address number := by
  have low : (address + UInt8.ofNat number).toNat = (address.toNat + number) % 256 := by
    rw [UInt8.toNat_add, UInt8.toNat_ofNat', Nat.add_mod_mod]
  have high : page.toNat < 256 := page.toNat_lt
  have whole : page.toNat * 256 + (address.toNat + number) % 256 < 65536 := by omega
  rw [← UInt16.toNat_inj, SpriteDma.source, transferSource, UInt16.toNat_or, UInt16.toNat_shiftLeft,
    UInt8.toNat_toUInt16, UInt8.toNat_toUInt16, low, UInt16.toNat_ofNat_of_lt' whole]
  change page.toNat <<< 8 % 2 ^ 16 ||| (address.toNat + number) % 256 = _
  have part : (address.toNat + number) % 256 < 2 ^ 8 := Nat.mod_lt _ (by decide)
  rw [← Nat.shiftLeft_eq page.toNat 8] at whole ⊢
  rw [Nat.mod_eq_of_lt (Nat.lt_of_le_of_lt (Nat.le_add_right _ _) whole),
    Nat.shiftLeft_add_eq_or_of_lt part]

/-- The slots begin with those of a transfer, as far as they go, and the copier has none after. -/
def Carries (uses whole : List SlotUse) : Prop :=
  ∃ later, uses = whole.take uses.length ++ later ∧ ∀ use ∈ later, use.isCopier = false

theorem Carries.nil (whole : List SlotUse) : Carries [] whole :=
  ⟨[], by simp, by simp⟩

theorem Carries.cons (use : SlotUse) {uses whole : List SlotUse} (h : Carries uses whole) :
    Carries (use :: uses) (use :: whole) := by
  obtain ⟨later, split, others⟩ := h
  refine ⟨later, ?_, others⟩
  rw [List.length_cons, List.take_succ_cons, List.cons_append, ← split]

theorem Carries.append (front : List SlotUse) {uses whole : List SlotUse}
    (h : Carries uses whole) : Carries (front ++ uses) (front ++ whole) := by
  induction front with
  | nil => exact h
  | cons use front ih => exact ih.cons use

/-- Neither a start nor a reset is in the log. -/
def Calm (log : List Happening) : Prop :=
  ∀ happening ∈ log, happening.disturbs = false

instance (log : List Happening) : Decidable (Calm log) :=
  inferInstanceAs (Decidable (∀ happening ∈ log, happening.disturbs = false))

theorem Calm.tail {happening : Happening} {log : List Happening} (h : Calm (happening :: log)) :
    Calm log :=
  fun later member => h later (List.mem_cons_of_mem happening member)

namespace CopierPhase

variable {p : CopierPhase} {log : List Happening} {page address : UInt8}

theorem after_of_calm {happening : Happening} (calm : happening.disturbs = false)
    (other : happening.use? = none) : p.after happening = p := by
  cases happening with
  | slot tick use => cases other
  | access origin access =>
    cases access with
    | read _ _ _ | write _ _ => rfl
    | startCopy _ _ => cases calm
  | reset => cases calm

/-- Up to the next slot nothing moves the copier. -/
theorem exists_next_slot (obeys : p.Obeys log) (calm : Calm log) :
    slotUses log = [] ∨ ∃ tick use rest, slotUses log = use :: slotUses rest ∧
      startsOdd log = decide (tick % 2 = 1) ∧ p.Allows (.slot tick use) ∧
      (p.after (.slot tick use)).Obeys rest ∧ Calm rest := by
  induction log with
  | nil => exact .inl rfl
  | cons happening log ih =>
    cases happening with
    | slot tick use => exact .inr ⟨tick, use, log, rfl, rfl, obeys.1, obeys.2, calm.tail⟩
    | access origin access =>
      have still := after_of_calm (p := p) (calm _ List.mem_cons_self) rfl
      have rest := obeys.2
      rw [still] at rest
      exact ih rest calm.tail
    | reset => cases calm _ List.mem_cons_self

/-- An idle copier has no slot. -/
theorem carries_of_idle {odd : Bool} (obeys : (⟨.idle, odd⟩ : CopierPhase).Obeys log)
    (calm : Calm log) : Carries (slotUses log) [] := by
  refine ⟨slotUses log, by simp, ?_⟩
  induction log generalizing odd with
  | nil => simp [slotUses]
  | cons happening log ih =>
    cases happening with
    | slot tick use =>
      intro use' member
      rcases List.mem_cons.mp member with rfl | member
      · exact obeys.1.2
      · exact ih obeys.2 calm.tail use' member
    | access origin access =>
      have rest := obeys.2
      rw [after_of_calm (calm _ List.mem_cons_self) rfl] at rest
      exact ih rest calm.tail
    | reset => cases calm _ List.mem_cons_self

/-- The address comes round to its start after the last byte of the page. -/
theorem add_one_eq_iff {number : Nat} :
    address + UInt8.ofNat number + 1 = address ↔ (number + 1) % 256 = 0 := by
  have small := address.toNat_lt
  rw [← UInt8.toNat_inj, UInt8.toNat_add, UInt8.toNat_add, UInt8.toNat_ofNat']
  change ((address.toNat + number % 256) % 256 + 1) % 256 = address.toNat ↔ _
  omega

/-- A byte is read and written, and then the copier goes on to the next one or stops. -/
theorem exists_byte {data : UInt8} {number : Nat}
    (obeys : (⟨.copying page (address + UInt8.ofNat number) address data, false⟩ :
      CopierPhase).Obeys log) (calm : Calm log) :
    ∃ byte, (∀ whole, Carries (slotUses log) (byteUses page address number byte ++ whole)) ∨
      ∃ rest, slotUses log = byteUses page address number byte ++ slotUses rest ∧ Calm rest ∧
        (⟨if (number + 1) % 256 = 0 then .idle
          else .copying page (address + UInt8.ofNat (number + 1)) address byte, false⟩ :
          CopierPhase).Obeys rest := by
  -- The log may end before the read, end before the write, or go on after both.
  rcases exists_next_slot obeys calm with
    none_left | ⟨tick, use, rest, split, -, allows, obeys, calm⟩
  · refine ⟨0, .inl fun whole => ?_⟩
    rw [none_left]
    exact .nil _
  · obtain ⟨-, byte, rfl⟩ := allows
    rw [source_add] at split
    change (⟨.copying page (address + UInt8.ofNat number) address byte, true⟩ :
      CopierPhase).Obeys rest at obeys
    refine ⟨byte, ?_⟩
    rcases exists_next_slot obeys calm with
      none_left | ⟨tick, use, rest', split', -, allows, obeys, calm⟩
    · refine .inl fun whole => ?_
      rw [split, none_left]
      exact (Carries.nil _).cons _
    · obtain ⟨-, rfl⟩ := allows
      refine .inr ⟨rest', ?_, calm, ?_⟩
      · rw [split, split']
        rfl
      · have next : address + UInt8.ofNat (number + 1) = address + UInt8.ofNat number + 1 := by
          rw [UInt8.ofNat_add, ← UInt8.add_assoc]
          rfl
        change (⟨if address + UInt8.ofNat number + 1 = address then .idle
          else .copying page (address + UInt8.ofNat number + 1) address byte, false⟩ :
          CopierPhase).Obeys rest' at obeys
        rw [next]
        simpa only [add_one_eq_iff] using obeys

/-- The bytes that are left are copied one after the other. -/
theorem exists_page {data : UInt8} {number count : Nat} (left : number + (count + 1) = 256)
    (obeys : (⟨.copying page (address + UInt8.ofNat number) address data, false⟩ :
      CopierPhase).Obeys log) (calm : Calm log) :
    ∃ bytes, bytes.length = count + 1 ∧
      Carries (slotUses log) (pageUses page address number bytes) := by
  induction count generalizing number log data with
  | zero =>
    obtain ⟨byte, cut | ⟨rest, split, calm, obeys⟩⟩ := exists_byte obeys calm
    · exact ⟨[byte], rfl, cut _⟩
    · -- The address has come round, which stops the copier.
      rw [if_pos (by omega)] at obeys
      refine ⟨[byte], rfl, ?_⟩
      rw [split]
      exact (carries_of_idle obeys calm).append _
  | succ count ih =>
    obtain ⟨byte, cut | ⟨rest, split, calm, obeys⟩⟩ := exists_byte obeys calm
    · -- Bytes that the log ends before may be any.
      exact ⟨byte :: List.replicate (count + 1) 0, by simp, cut _⟩
    · rw [if_neg (by omega)] at obeys
      obtain ⟨bytes, length, carries⟩ := ih (by omega) obeys calm
      refine ⟨byte :: bytes, by rw [List.length_cons, length], ?_⟩
      rw [split]
      exact carries.append _

/-- From the first odd slot on, the whole page is copied. -/
theorem exists_page_of_odd (obeys : (⟨.aligning page address, true⟩ : CopierPhase).Obeys log)
    (calm : Calm log) :
    ∃ bytes, bytes.length = 256 ∧
      Carries (slotUses log) (.copier none :: pageUses page address 0 bytes) := by
  rcases exists_next_slot obeys calm with
    none_left | ⟨tick, use, rest, split, -, allows, obeys, calm⟩
  · refine ⟨List.replicate 256 0, List.length_replicate, ?_⟩
    rw [none_left]
    exact .nil _
  · obtain ⟨-, rfl⟩ := allows
    have copying : (⟨.copying page (address + UInt8.ofNat 0) address 0, false⟩ :
        CopierPhase).Obeys rest := by
      rw [show address + UInt8.ofNat 0 = address from UInt8.add_zero address]
      exact obeys
    obtain ⟨bytes, length, carries⟩ := exists_page (by decide : 0 + (255 + 1) = 256) copying calm
    refine ⟨bytes, length, ?_⟩
    rw [split]
    exact carries.cons _

/-- The first slot falls where the phase says. -/
theorem eq_odd_of_allows {odd : Bool} {tick : UInt64} (parity : tick.toNat % 2 = odd.toNat) :
    decide (tick % 2 = 1) = odd := by
  have same : tick % 2 = 1 ↔ tick.toNat % 2 = 1 := by
    rw [← UInt64.toNat_inj, UInt64.toNat_mod]
    rfl
  simp only [same, parity]
  cases odd <;> rfl

/-- After a start comes a transfer. -/
theorem exists_transfer {odd : Bool}
    (obeys : (⟨.aligning page address, odd⟩ : CopierPhase).Obeys log) (calm : Calm log) :
    ∃ bytes, bytes.length = 256 ∧
      Carries (slotUses log) (transferUses (startsOdd log) page address bytes) := by
  rcases exists_next_slot obeys calm with
    none_left | ⟨tick, use, rest, split, starts, ⟨parity, rfl⟩, obeys', calm'⟩
  · refine ⟨List.replicate 256 0, List.length_replicate, ?_⟩
    rw [none_left]
    exact .nil _
  · rw [starts, eq_odd_of_allows parity]
    cases odd with
    | true => exact exists_page_of_odd obeys calm
    | false =>
      -- The even slot passes, and the one after it is odd.
      have odd : (⟨.aligning page address, true⟩ : CopierPhase).Obeys rest := obeys'
      obtain ⟨bytes, length, carries⟩ := exists_page_of_odd odd calm'
      refine ⟨bytes, length, ?_⟩
      rw [split]
      exact carries.cons _

end CopierPhase

namespace Machine

variable {κ π δ : Type} [Processor κ] [PictureUnit π] [FileStore δ]

/-- **Transfers of sprite pages.** Whatever is done to a console, a start of the copier is followed
by one or two slots to align and by 256 pairs of slots that each read a byte of the page, beginning
at the sprite address, and write it to the sprite memory: 513 slots if the first one falls on an odd
tick, and 514 if not. Then the copier has no slot until it is started again. In each slot of the
copier that the log tells, its access is made and the processor has no clock. -/
theorem spriteTransfer_of_log (m : Machine κ π δ) (ops : List (Operation κ π δ))
    {before after rest : List Happening} {origin : Origin} {page address : UInt8}
    (start : m.log ops = before ++ .access origin (.startCopy page address) :: (after ++ rest))
    (calm : Calm after) :
    (∃ bytes, bytes.length = 256 ∧
      Carries (slotUses after) (transferUses (startsOdd after) page address bytes) ∧
      (transferUses (startsOdd after) page address bytes).length =
        if startsOdd after then 513 else 514) ∧
    (∀ told later tick access, m.log ops = told ++ .slot tick (.copier access) :: later →
      ∃ earlier rest s, ops = earlier ++ .clock :: rest ∧ m.log earlier = told ∧
        earlier.foldlM apply m = .ok s ∧ s.CopiesNext tick access) ∧
    ∀ d : Devices π δ, d.read 0x2003 false = d.readPicture 3 false ∧
      ∀ byte, d.write 0x2004 byte = d.writePicture 4 byte := by
  refine ⟨?_, fun _ _ _ _ split => exists_copiesNext_of_log split,
    fun d => ⟨d.read_spriteAddress false, d.write_spriteMemory⟩⟩
  have obeys := m.obeys_log ops
  rw [start, CopierPhase.obeys_append] at obeys
  obtain ⟨bytes, length, carries⟩ :=
    CopierPhase.exists_transfer (CopierPhase.obeys_append.mp obeys.2.2).1 calm
  exact ⟨bytes, length, carries, length_transferUses _ page address length⟩

/-- A page is copied right after power-on, beginning with its last byte. Two slots go by, and then
two bytes are read, the second one from the beginning of the page, and written. -/
theorem spriteTransfer_of_powerOn :
    let cartridge : Cartridge := {
      header := ⟨1, 1, 0, 0, 0, 0, 0, .replicate 5 0⟩
      container := .ines
      prg := .zeros 16384 (by decide)
      chr := .zeros 8192 (by decide)
      board := .nrom { banks := ⟨1, 1, by decide⟩ } }
    let ops : List (Operation Bench.ScriptedProcessor Bench.RegisterPicture Disk) :=
      [.insert cartridge, .write 0x2003 0xFF, .write 0x02FF 0xAB, .write 0x0200 0xCD,
        .write 0x4014 0x02] ++ .replicate 16 .clock
    let before : List Happening := [.access .outside (.write 0x2003 0xFF),
      .access .outside (.write 0x02FF 0xAB), .access .outside (.write 0x0200 0xCD)]
    let aligned : List Happening := [.slot 0 (.copier none), .slot 3 (.copier none)]
    let first : List Happening := [.slot 6 (.copier (some (.read 0x02FF false 0xAB))),
      .slot 9 (.copier (some (.write 0x2004 0xAB)))]
    let second : List Happening := [.slot 12 (.copier (some (.read 0x0200 false 0xCD))),
      .slot 15 (.copier (some (.write 0x2004 0xCD)))]
    ∃ m m', initial {} {} {} {} = .ok m ∧ ops.foldlM apply m = .ok m' ∧
      m'.hasCartridge = true ∧ m'.devices.picture.writes = [(4, 0xCD), (4, 0xAB), (3, 0xFF)] ∧
      m.log ops = before ++ .access .outside (.startCopy 0x02 0xFF) ::
        (aligned ++ first ++ second ++ []) ∧
      (∃ bytes, bytes.length = 256 ∧
        Carries (slotUses (aligned ++ first ++ second)) (transferUses false 0x02 0xFF bytes) ∧
        (transferUses false 0x02 0xFF bytes).length = 514) ∧
      ∃ earlier rest s, ops = earlier ++ .clock :: rest ∧ earlier.foldlM apply m = .ok s ∧
        s.CopiesNext 9 (some (.write 0x2004 0xAB)) := by
  intro cartridge ops before aligned first second
  let log := before ++ .access .outside (.startCopy 0x02 0xFF) :: (aligned ++ first ++ second ++ [])
  have evaluated : (initial {} {} {} {} >>= fun m => ops.foldlM apply m >>= fun m' =>
      .ok (m.log ops, m'.hasCartridge, m'.devices.picture.writes)).toOption =
        some (log, true, [(4, 0xCD), (4, 0xAB), (3, 0xFF)]) := by
    decide +kernel
  simp only [toOption_eq_some, bind_eq_ok] at evaluated
  obtain ⟨m, made, m', run, facts⟩ := evaluated
  obtain ⟨told, inserted, writes⟩ : m.log ops = log ∧ m'.hasCartridge = true ∧
      m'.devices.picture.writes = [(4, 0xCD), (4, 0xAB), (3, 0xFF)] := by
    simpa only [Except.ok.injEq, Prod.mk.injEq] using facts
  have calm : Calm (aligned ++ first ++ second) := by decide
  obtain ⟨transfer, copies, -⟩ := spriteTransfer_of_log m ops told calm
  obtain ⟨earlier, rest, s, split, -, visit, copied⟩ :=
    copies (before ++ .access .outside (.startCopy 0x02 0xFF) :: aligned ++ first.take 1) second 9
      (some (.write 0x2004 0xAB)) told
  exact ⟨m, m', made, run, inserted, writes, told, transfer, earlier, rest, s, split, visit, copied⟩

end Machine

end Famicom
