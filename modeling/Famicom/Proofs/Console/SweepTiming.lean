import Famicom.Bench.RegisterPicture
import Famicom.Proofs.Audio.PeriodRange
import Famicom.Proofs.Console.Run
import Famicom.Storage.Disk

/-!
# Sweeps on the console

On the console the processor writes to the registers of the sound unit in its slots, every third
tick. The tick after a slot finds change and mute of both sweeps again, and is never a half frame,
so half frames meet sweeps that are up to date.

## Main definitions

* `Synthesizer.IsReady` — what a write keeps of the sound unit
* `Machine.IsTimed` — the invariant, which ties the ticks of the console to those of the sound unit
* `BusAccess.sparesSound`, `Machine.Operation.sparesSound` — what leaves the sound unit alone
* `ticksSinceReset` — the ticks that a list of operations makes after its last reset

## Main results

* `Machine.IsTimed.exists_clock` — a tick keeps the invariant
* `Machine.sweeps_upToDate` — half frames meet sweeps that are up to date
-/

namespace Famicom

open Audio

namespace Audio.Synthesizer

/-- Both pulse voices are in range, the frame sequencer has counted every sixth tick, and the taps
have a known capacity. -/
structure IsReady (s : Synthesizer) (ticks : UInt64) (capacity : Nat) : Prop where
  inRange : s.InRange
  aligned : s.IsAligned
  ticks_eq : s.ticks = ticks
  capacity_eq : s.taps.map (·.capacity) = .uniform capacity

theorem taps_write (s : Synthesizer) (address : UInt16) (data : UInt8) :
    (s.write address data).taps = s.taps := by
  obtain ⟨_, _, _, _, _, written⟩ := s.exists_write address data
  rw [written]

namespace IsReady

variable {s s' : Synthesizer} {ticks : UInt64} {capacity : Nat}

theorem write (h : s.IsReady ticks capacity) (address : UInt16) (data : UInt8) :
    (s.write address data).IsReady ticks capacity where
  inRange := h.inRange.write address data
  aligned := h.aligned.of_eq (s.frame_write address data) (s.ticks_write address data)
  ticks_eq := (s.ticks_write address data).trans h.ticks_eq
  capacity_eq := (congrArg _ (s.taps_write address data)).trans h.capacity_eq

theorem deliver (h : s.IsReady ticks capacity) (byte : UInt8) :
    (s.deliver byte).IsReady ticks capacity where
  inRange := h.inRange.deliver byte
  aligned := h.aligned.of_eq rfl rfl
  ticks_eq := h.ticks_eq
  capacity_eq := h.capacity_eq

theorem withSwitches (h : s.IsReady ticks capacity) (switches : PerChannel Bool) :
    IsReady { s with switches } ticks capacity where
  inRange := ⟨h.inRange.pulse1, h.inRange.pulse2, h.inRange.bits⟩
  aligned := h.aligned.of_eq rfl rfl
  ticks_eq := h.ticks_eq
  capacity_eq := h.capacity_eq

theorem sample (h : s.IsReady ticks capacity) : s.sample.2.IsReady ticks capacity where
  inRange := ⟨h.inRange.pulse1, h.inRange.pulse2, h.inRange.bits⟩
  aligned := h.aligned.of_eq rfl rfl
  ticks_eq := h.ticks_eq
  capacity_eq := by
    rw [← h.capacity_eq]
    simp only [Synthesizer.sample, PerChannel.zipWith, PerChannel.map, BoundedQueue.capacity_push]

/-- A tick that meets sweeps up to date, if it is a half frame, has a result. -/
theorem exists_clock (h : s.IsReady ticks capacity)
    (tracked : s.frameEvent? = some .half → s.SweepsTracked) :
    ∃ s', s.clock = .ok s' ∧ s'.SweepsTracked ∧
      (ticks.toNat + 1 < 2 ^ 64 → s'.IsReady (ticks + 1) capacity) := by
  obtain ⟨s', run, tracked', inRange, -⟩ := h.inRange.exists_clock
  have tick := clock_eq_ok_iff.mp run
  refine ⟨s', run, tracked', fun room => ?_⟩
  exact {
    inRange := inRange fun past => not_overshoots_of_sweepsTracked (tracked past.1) past
    aligned := h.aligned.of_isTick tick (by rwa [h.ticks_eq])
    ticks_eq := by rw [tick.ticks, h.ticks_eq]
    capacity_eq := by rw [tick.taps, h.capacity_eq] }

theorem initial (made : Synthesizer.initial capacity = .ok s) :
    s.IsReady 0 capacity ∧ capacity < tapCapacityLimit := by
  have begun := isStart_of_initial made
  obtain ⟨tap, fits, made⟩ := bind_eq_ok.mp made
  obtain rfl := Except.ok.inj made
  unfold newTap at fits
  split at fits
  · rename_i small
    obtain rfl := Except.ok.inj fits
    exact ⟨⟨.of_isStart begun, begun.isAligned, begun.ticks_eq, rfl⟩, small⟩
  · cases fits

/-- A reset has a result while the taps have room in memory. -/
theorem exists_reset (h : s.IsReady ticks capacity) (small : capacity < tapCapacityLimit) :
    ∃ s', s.reset = .ok s' ∧ s'.IsReady 0 capacity := by
  have made : newTap capacity = .ok (.empty capacity) := if_pos small
  have taps : (s.taps.map (·.capacity)).mapM newTap = .ok (.uniform (.empty capacity)) := by
    rw [h.capacity_eq]
    simp only [PerChannel.uniform, PerChannel.mapM, made]
    rfl
  have run : s.reset = .ok { switches := s.switches, taps := .uniform (.empty capacity) } :=
    bind_eq_ok.mpr ⟨_, taps, rfl⟩
  have begun := isStart_of_reset run
  exact ⟨_, run, .of_isStart begun, begun.isAligned, rfl, rfl⟩

end IsReady

end Audio.Synthesizer

/-! ### What leaves the sound unit alone -/

/-- The access is no write to a register of the sound unit. -/
def BusAccess.sparesSound : BusAccess → Bool
  | .write address _ => (Register.ofAddress? address).isNone
  | _ => true

variable {κ π δ : Type} [PictureUnit π] [FileStore δ]

namespace Devices

/-- Accesses leave the sound unit ready. -/
theorem isReady_foldl_perform {d : Devices π δ} {ticks : UInt64} {capacity : Nat}
    (accesses : List BusAccess) (h : d.sound.IsReady ticks capacity) :
    (accesses.foldl perform d).sound.IsReady ticks capacity := by
  refine foldl_perform_invariant (P := fun d => d.sound.IsReady ticks capacity) ?_ h
  intro access _ d ready
  cases access with
  | read address peek byte =>
    rw [perform, sound_read]
    exact ready
  | write address data =>
    rw [perform, sound_write]
    exact ready.write address data
  | startCopy page address =>
    rw [perform, sound_write]
    exact ready.write copierRegister page

theorem sound_perform_of_spares (d : Devices π δ) {access : BusAccess}
    (spares : access.sparesSound = true) : (d.perform access).sound = d.sound := by
  cases access with
  | read address peek byte => exact d.sound_read address peek
  | write address data =>
    rw [perform, sound_write]
    exact write_of_ofAddress?_eq_none data (Option.isNone_iff_eq_none.mp spares)
  | startCopy page address =>
    rw [perform, sound_write]
    exact write_of_ofAddress?_eq_none page rfl

/-- Accesses that spare the sound unit leave it as it is. -/
theorem sound_foldl_perform (d : Devices π δ) {accesses : List BusAccess}
    (spares : ∀ access ∈ accesses, access.sparesSound = true) :
    (accesses.foldl perform d).sound = d.sound := by
  refine foldl_perform_invariant (P := fun d' => d'.sound = d.sound) ?_ rfl
  intro access member d' same
  rw [d'.sound_perform_of_spares (spares access member), same]

end Devices

namespace Machine

/-- The interrupts in a log leave the sound unit alone. -/
def InterruptsSpareSound (log : List Happening) : Prop :=
  ∀ access, .access .interrupt access ∈ log → access.sparesSound = true

variable [Processor κ]

theorem IsPoll.sound_eq {m m' : Machine κ π δ} {log : List Happening} (h : m.IsPoll log m')
    (spares : InterruptsSpareSound log) : m'.devices.sound = m.devices.sound := by
  cases h with
  | quiet picture cartridge => rfl
  | interrupt picture cartridge program handler =>
    rw [devices_runProcessor]
    refine Devices.sound_foldl_perform _ fun access member => spares access ?_
    exact List.mem_map_of_mem member

omit [Processor κ] [PictureUnit π] [FileStore δ] in
/-- Taking a sample leaves the sound unit ready, and its sweeps alone. -/
theorem isReady_sampleAudio {m : Machine κ π δ} {ticks : UInt64} {capacity : Nat}
    (h : m.devices.sound.IsReady ticks capacity) :
    m.sampleAudio.2.devices.sound.IsReady ticks capacity ∧
      (m.devices.sound.SweepsTracked → m.sampleAudio.2.devices.sound.SweepsTracked) := by
  unfold sampleAudio
  dsimp only
  split
  · exact ⟨h.sample, fun tracked => ⟨tracked.1, tracked.2⟩⟩
  · exact ⟨h, id⟩

theorem sound_poll {m : Machine κ π δ} (spares : InterruptsSpareSound m.pollLog) :
    m.poll.devices.sound = m.devices.sound := by
  have nmi := m.isPoll_nmi.sound_eq fun a member => spares a (by simp [pollLog, member])
  have irq := m.pollNmi.isPoll_cartridgeIrq.sound_eq fun a member =>
    spares a (by simp [pollLog, member])
  have sound := m.pollNmi.pollCartridgeIrq.isPoll_soundIrq.sound_eq fun a member =>
    spares a (by simp [pollLog, member])
  exact sound.trans (irq.trans nmi)

variable (κ π δ) in
/-- Interrupt handlers never write to a register of the sound unit. -/
def HandlersSpareSound : Prop :=
  ∀ (processor : κ) (d : Devices π δ),
    (∀ access ∈ (Processor.nmi processor).accesses d, access.sparesSound = true) ∧
      ∀ access ∈ (Processor.irq processor).accesses d, access.sparesSound = true

theorem IsPoll.interruptsSpareSound {m m' : Machine κ π δ} {log : List Happening}
    (h : m.IsPoll log m') (spare : HandlersSpareSound κ π δ) : InterruptsSpareSound log := by
  cases h with
  | quiet picture cartridge => simp [InterruptsSpareSound]
  | interrupt picture cartridge program handler =>
    intro access member
    obtain ⟨made, found, same⟩ := List.mem_map.mp member
    cases same
    rcases handler with rfl | rfl
    · exact (spare _ _).1 access found
    · exact (spare _ _).2 access found

theorem interruptsSpareSound_append {log log' : List Happening} :
    InterruptsSpareSound (log ++ log') ↔ InterruptsSpareSound log ∧ InterruptsSpareSound log' := by
  simp only [InterruptsSpareSound, List.mem_append, or_imp, forall_and]

omit [Processor κ] in
theorem interruptsSpareSound_programLog (m : Machine κ π δ) {origin : Origin}
    (program : BusProgram κ) (other : origin ≠ .interrupt) :
    InterruptsSpareSound (m.programLog origin program) := by
  intro access member
  obtain ⟨made, -, same⟩ := List.mem_map.mp member
  cases same
  exact absurd rfl other

theorem interruptsSpareSound_lateLog (spare : HandlersSpareSound κ π δ) (m : Machine κ π δ) :
    InterruptsSpareSound m.lateLog := by
  refine interruptsSpareSound_append.mpr ⟨?_, ?_⟩
  · split
    · intro access member
      rcases List.mem_cons.mp member with same | member
      · cases same
      · split at member
        · exact interruptsSpareSound_programLog _ _ (by decide) access member
        · cases member
    · simp [InterruptsSpareSound]
  · exact interruptsSpareSound_append.mpr ⟨(isPoll_nmi _).interruptsSpareSound spare,
      interruptsSpareSound_append.mpr ⟨(isPoll_cartridgeIrq _).interruptsSpareSound spare,
        (isPoll_soundIrq _).interruptsSpareSound spare⟩⟩

theorem interruptsSpareSound_resetLog (m : Machine κ π δ) : InterruptsSpareSound m.resetLog :=
  interruptsSpareSound_append.mpr
    ⟨interruptsSpareSound_programLog _ _ (by decide), by simp [InterruptsSpareSound]⟩

/-- With such handlers, interrupts leave the sound unit alone in every run. -/
theorem interruptsSpareSound_log (spare : HandlersSpareSound κ π δ) (m : Machine κ π δ)
    (ops : List (Operation κ π δ)) : InterruptsSpareSound (m.log ops) := by
  have told : ∀ (m : Machine κ π δ) (op : Operation κ π δ),
      InterruptsSpareSound (m.happenings op) := by
    intro m op
    cases op with
    | clock =>
      change InterruptsSpareSound m.clockLog
      unfold clockLog
      split
      · exact interruptsSpareSound_lateLog spare _
      · simp [InterruptsSpareSound]
    | reset => exact interruptsSpareSound_resetLog m
    | load path =>
      unfold happenings
      dsimp only
      cases Cartridge.openFile path m.settings.saveDirectory m.devices.store with
      | ok cartridge => exact interruptsSpareSound_resetLog (m.insert cartridge)
      | error error => simp [InterruptsSpareSound]
    | read _ _ | write _ _ => simp [InterruptsSpareSound, happenings]
    | insert _ | press _ _ | setSampleRate _ | mapProcessor _ | mapPicture _ | mapSound _
    | mapCartridge _ => simp [InterruptsSpareSound, happenings]
  intro access member
  exact forall_mem_runLog
    (P := fun entry => ∀ access, entry = .access .interrupt access → access.sparesSound = true)
    (by rintro m op entry found access rfl; exact told m op access found) ops m _ member access rfl

/-- A slot leaves the sound unit ready, whatever it is used for. -/
theorem isReady_useSlot {m : Machine κ π δ} {ticks : UInt64} {capacity : Nat}
    (h : m.devices.sound.IsReady ticks capacity) :
    m.useSlot.devices.sound.IsReady ticks capacity := by
  rw [useSlot_eq]
  split
  · obtain ⟨dma, log, steps⟩ := m.devices.exists_stepSpriteDma m.ticks
    change (m.devices.stepSpriteDma m.ticks).sound.IsReady ticks capacity
    rw [steps]
    cases m.devices.copierAccess? m.ticks with
    | none => exact h
    | some access => exact Devices.isReady_foldl_perform [access] h
  · rename_i address byte _
    change (m.devices.read address false).2.sound.deliver byte |>.IsReady ticks capacity
    rw [Devices.sound_read]
    exact h.deliver byte
  · exact h
  · rw [devices_runProcessor]
    exact Devices.isReady_foldl_perform _ h

/-! ### The invariant -/

/-- The sound unit has made as many ticks as the console, and but for the tick after a slot the
sweeps are up to date. -/
structure IsTimed (m : Machine κ π δ) (count capacity : Nat) : Prop where
  ready : m.devices.sound.IsReady m.ticks capacity
  count_eq : m.ticks.toNat = count
  upToDate : count % 3 ≠ 1 → count = 0 ∨ m.devices.sound.SweepsTracked

/-- The register writes that an operation makes are those of the processor. -/
def Operation.leavesRegisters : Operation κ π δ → Bool
  | .write _ _ | .mapSound _ | .load _ => false
  | _ => true

/-- The number of ticks since power-on or reset after one more operation. -/
def ticksAfter (count : Nat) : Operation κ π δ → Nat
  | .clock => count + 1
  | .reset => 0
  | _ => count

/-- The number of ticks that a list of operations makes after its last reset. -/
def ticksSinceReset (ops : List (Operation κ π δ)) : Nat :=
  ops.foldl ticksAfter 0

namespace IsTimed

variable {m m' : Machine κ π δ} {count capacity : Nat}

omit [Processor κ] [PictureUnit π] [FileStore δ] in
/-- A half frame is never due in the tick after a slot. -/
theorem sweepsTracked (h : m.IsTimed count capacity)
    (half : m.devices.sound.frameEvent? = some .half) : m.devices.sound.SweepsTracked := by
  -- Half frames come at multiples of six, and slots at multiples of three.
  rw [h.ready.aligned.frameEvent?_eq, h.ready.ticks_eq, h.count_eq] at half
  obtain ⟨sixth, halves⟩ := eventOfTick?_eq_half_iff.mp half
  rcases h.upToDate (by omega) with rfl | tracked
  · omega
  · exact tracked

omit [Processor κ] [FileStore δ] in
theorem exists_clockSound (h : m.IsTimed count capacity) :
    ∃ late, m.clockPicture.clockSound = .ok late ∧ late.ticks = m.ticks ∧
      late.devices.sound.SweepsTracked ∧
      (count + 1 < 2 ^ 64 → late.devices.sound.IsReady (m.ticks + 1) capacity) := by
  obtain ⟨s', run, tracked, ready⟩ := h.ready.exists_clock h.sweepsTracked
  have sound : m.clockPicture.devices.sound = m.devices.sound := by
    obtain ⟨_, _, dotted⟩ := m.exists_clockPicture
    rw [dotted]
    rfl
  rw [← sound] at run
  exact ⟨_, bind_eq_ok.mpr ⟨s', run, rfl⟩, rfl, tracked, fun room => ready (by rwa [h.count_eq])⟩

/-- A tick has a result and keeps the invariant, as long as ticks can be counted. -/
theorem exists_clock (h : m.IsTimed count capacity) (spares : InterruptsSpareSound m.clockLog)
    (room : count + 1 < 2 ^ 64) :
    ∃ m', m.apply .clock = .ok m' ∧ m'.IsTimed (count + 1) capacity := by
  obtain ⟨late, clocked, ticks, tracked, ready⟩ := h.exists_clockSound
  refine ⟨_, apply_clock_eq_ok_iff.mpr ⟨late, clocked, rfl⟩, ?_⟩
  -- After the sound unit has moved, its registers are written in the slot and nowhere else.
  have log : m.clockLog = late.lateLog := by rw [clockLog, clocked]
  have polled := sound_poll (m := late.slot.sampleAudio.2) fun access member =>
    spares access (by rw [log, lateLog]; exact List.mem_append_right _ member)
  have slot : late.slot.devices.sound.IsReady (m.ticks + 1) capacity := by
    unfold slot
    split
    · exact isReady_useSlot (ready room)
    · exact ready room
  obtain ⟨sampled, kept⟩ := isReady_sampleAudio slot
  have next : (m.ticks + 1).toNat = count + 1 := by
    rw [UInt64.toNat_add, h.count_eq]
    exact Nat.mod_eq_of_lt room
  have same : late.slot.sampleAudio.2.poll.ticks = m.ticks := by
    rw [ticks_poll, ticks_sampleAudio, ticks_slot, ticks]
  refine ⟨?_, by rw [same]; exact next, fun other => .inr ?_⟩
  · rw [same, polled]
    exact sampled
  · -- No slot has come since the tick that found the sweeps.
    have third : m.ticks % 3 = 0 ↔ m.ticks.toNat % 3 = 0 := mod_eq_zero_iff_toNat
    have none : late.slot = late := by
      refine if_neg ?_
      rw [ticks, third, h.count_eq]
      omega
    rw [polled]
    exact kept (by rwa [none])

/-- A reset has a result and starts the count again. -/
theorem exists_reset (h : m.IsTimed count capacity)
    (small : capacity < Synthesizer.tapCapacityLimit) :
    ∃ m', m.apply .reset = .ok m' ∧ m'.IsTimed 0 capacity := by
  have ran : (m.resetCartridge.runProcessor (Processor.reset m.processor)).devices.sound.IsReady
      m.ticks capacity := by
    rw [devices_runProcessor]
    exact Devices.isReady_foldl_perform _ h.ready
  -- What the processor wrote before is lost when the sound unit is reset in its turn.
  obtain ⟨s', run, ready⟩ := ran.exists_reset small
  exact ⟨_, bind_eq_ok.mpr ⟨s', run, rfl⟩, ready, rfl, fun _ => .inl rfl⟩

omit [Processor κ] [PictureUnit π] [FileStore δ] in
theorem of_eq (h : m.IsTimed count capacity) (sound : m'.devices.sound = m.devices.sound)
    (ticks : m'.ticks = m.ticks) : m'.IsTimed count capacity where
  ready := by rw [sound, ticks]; exact h.ready
  count_eq := by rw [ticks]; exact h.count_eq
  upToDate := by rw [sound]; exact h.upToDate

/-- Nothing but ticks and resets touches what the invariant is about. -/
theorem of_apply (h : m.IsTimed count capacity) {op : Operation κ π δ}
    (leaves : op.leavesRegisters = true) (other : op ≠ .clock) (other' : op ≠ .reset) :
    ∃ m', m.apply op = .ok m' ∧ m'.IsTimed count capacity := by
  cases op with
  | clock => exact absurd rfl other
  | reset => exact absurd rfl other'
  | write _ _ | mapSound _ | load _ => cases leaves
  | read address peek => exact ⟨_, rfl, h.of_eq (m.devices.sound_read address peek) rfl⟩
  | press number buttons =>
    refine ⟨_, rfl, h.of_eq ?_ ?_⟩
    · unfold press
      split <;> rfl
    · unfold press
      split <;> rfl
  | mapCartridge f =>
    refine ⟨_, rfl, h.of_eq ?_ rfl⟩
    unfold mapDevices
    dsimp only
    split <;> rfl
  | insert _ | setSampleRate _ | mapProcessor _ | mapPicture _ => exact ⟨_, rfl, h.of_eq rfl rfl⟩

/-- A run in which the processor alone writes to the sound unit has a result and keeps the
invariant. -/
theorem exists_run (h : m.IsTimed count capacity) (small : capacity < Synthesizer.tapCapacityLimit)
    {ops : List (Operation κ π δ)} (leaves : ∀ op ∈ ops, op.leavesRegisters = true)
    (few : ∀ before after, ops = before ++ after → before.foldl ticksAfter count < 2 ^ 64)
    (spares : InterruptsSpareSound (m.log ops)) :
    ∃ m', ops.foldlM apply m = .ok m' ∧ m'.IsTimed (ops.foldl ticksAfter count) capacity := by
  induction ops generalizing m count with
  | nil => exact ⟨m, rfl, h⟩
  | cons op ops ih =>
    have first : InterruptsSpareSound (m.happenings op) := fun access member =>
      spares access (List.mem_append_left _ member)
    obtain ⟨middle, moved, timed⟩ :
        ∃ m', m.apply op = .ok m' ∧ m'.IsTimed (ticksAfter count op) capacity := by
      by_cases clock : op = .clock
      · subst clock
        exact h.exists_clock first (few [.clock] ops rfl)
      · by_cases reset : op = .reset
        · subst reset
          exact h.exists_reset small
        · have kept : ticksAfter count op = count := by
            cases op <;> first | rfl | contradiction
          rw [kept]
          exact h.of_apply (leaves op List.mem_cons_self) clock reset
    have rest : InterruptsSpareSound (middle.log ops) := fun access member =>
      spares access (by rw [log, runLog_cons_of_ok ops moved]; exact List.mem_append_right _ member)
    have leaves' : ∀ op ∈ ops, op.leavesRegisters = true := fun op member =>
      leaves op (List.mem_cons_of_mem _ member)
    have few' : ∀ before after, ops = before ++ after →
        before.foldl ticksAfter (ticksAfter count op) < 2 ^ 64 := by
      intro before after split
      exact few (op :: before) after (by rw [split, List.cons_append])
    obtain ⟨m', run, timed'⟩ := ih timed leaves' few' rest
    exact ⟨m', foldlM_cons_eq_ok.mpr ⟨middle, moved, run⟩, timed'⟩

omit [Processor κ] [PictureUnit π] [FileStore δ] in
theorem of_initial {processor : κ} {picture : π} {store : δ} {settings : Settings}
    (made : initial processor picture store settings = .ok m) :
    m.IsTimed 0 settings.waveformCapacity.toNat ∧
      settings.waveformCapacity.toNat < Synthesizer.tapCapacityLimit := by
  obtain ⟨sound, started, made⟩ := bind_eq_ok.mp made
  obtain rfl := Except.ok.inj made
  obtain ⟨ready, small⟩ := Synthesizer.IsReady.initial started
  exact ⟨⟨ready.withSwitches settings.channels, rfl, fun _ => .inl rfl⟩, small⟩

end IsTimed

/-- **Sweeps are up to date in half frames.** Let a console run from power-on, its sound unit being
written to in clocks of its processor only, and let the ticks between two resets be countable in 64
bits. Then before every tick the sound unit has counted the ticks of the console, a half frame that
is due meets sweeps that are up to date, both pulse periods have eleven bits, and the tick has a
result. -/
theorem sweeps_upToDate {processor : κ} {picture : π} {store : δ} {settings : Settings}
    {start : Machine κ π δ} (made : initial processor picture store settings = .ok start)
    {ops : List (Operation κ π δ)} (leaves : ∀ op ∈ ops, op.leavesRegisters = true)
    (few : ∀ before after, ops = before ++ after → ticksSinceReset before < 2 ^ 64)
    (spares : InterruptsSpareSound (start.log ops)) {before after : List (Operation κ π δ)}
    (split : ops = before ++ after) :
    ∃ m, before.foldlM apply start = .ok m ∧ m.devices.sound.ticks = m.ticks ∧
      (m.devices.sound.frameEvent? = some .half → m.devices.sound.SweepsTracked) ∧
      m.devices.sound.PeriodsInRange ∧ ∃ m', m.apply .clock = .ok m' := by
  subst split
  obtain ⟨timed, small⟩ := IsTimed.of_initial made
  have spares' : InterruptsSpareSound (start.log before) := fun access member =>
    spares access ((runLog_isPrefix before after start).subset member)
  obtain ⟨m, run, timed⟩ := timed.exists_run small
    (fun op member => leaves op (List.mem_append_left _ member))
    (fun first last split => few first (last ++ after) (by rw [split, List.append_assoc])) spares'
  obtain ⟨late, clocked, -⟩ := timed.exists_clockSound
  exact ⟨m, run, timed.ready.ticks_eq, timed.sweepsTracked, timed.ready.inRange.periodsInRange,
    _, apply_clock_eq_ok_iff.mpr ⟨late, clocked, rfl⟩⟩

omit [Processor κ] [PictureUnit π] [FileStore δ] in
theorem ticksSinceReset_le_length (ops : List (Operation κ π δ)) :
    ticksSinceReset ops ≤ ops.length := by
  have le : ∀ count, ops.foldl ticksAfter count ≤ count + ops.length := by
    induction ops with
    | nil => exact fun count => Nat.le_refl count
    | cons op ops ih =>
      intro count
      have one : ticksAfter count op ≤ count + 1 := by cases op <;> simp [ticksAfter]
      have := ih (ticksAfter count op)
      rw [List.foldl_cons, List.length_cons]
      omega
  exact Nat.zero_add ops.length ▸ le 0

omit [Processor κ] [PictureUnit π] [FileStore δ] in
theorem foldl_ticksAfter_clocks (count n : Nat) :
    (List.replicate n (Operation.clock : Operation κ π δ)).foldl ticksAfter count = count + n := by
  induction n generalizing count with
  | zero => rfl
  | succ n ih =>
    rw [List.replicate_succ, List.foldl_cons, ih, ticksAfter]
    omega

end Machine

/-- A processor that sets period and sweep of the first pulse voice in every clock, and no more. -/
structure SweepWriter where
  deriving DecidableEq, Repr

instance : Processor SweepWriter where
  clock p := .write 0x4002 0xFF (.write 0x4001 0x81 (.done p))
  reset p := .done p
  nmi p := .done p
  irq p := .done p
  instructions _ := 0

theorem handlersSpareSound_sweepWriter :
    Machine.HandlersSpareSound SweepWriter Bench.RegisterPicture Disk := by
  intro processor d
  constructor <;> · intro access member; cases member

/-- The sweep is set in one slot before a reset and in 14912 slots after it. Then the first half
frame is due, and it meets sweeps that are up to date. -/
theorem Machine.sweeps_upToDate_of_sweepWriter :
    ∃ start : Machine SweepWriter Bench.RegisterPicture Disk,
      initial {} {} {} {} = .ok start ∧
      ∃ m, (Operation.clock :: .reset :: List.replicate 44736 .clock).foldlM apply start = .ok m ∧
        m.devices.sound.ticks = m.ticks ∧ m.devices.sound.frameEvent? = some .half ∧
        m.devices.sound.SweepsTracked ∧ m.devices.sound.PeriodsInRange ∧
        ∃ m', m.apply .clock = .ok m' := by
  obtain ⟨start, made⟩ : ∃ start : Machine SweepWriter Bench.RegisterPicture Disk,
      initial {} {} {} {} = .ok start := ⟨_, rfl⟩
  let before : List (Operation SweepWriter Bench.RegisterPicture Disk) :=
    .clock :: .reset :: List.replicate 44736 .clock
  have leaves : ∀ op ∈ before, op.leavesRegisters = true := by
    intro op member
    rcases List.mem_cons.mp member with rfl | member
    · rfl
    · rcases List.mem_cons.mp member with rfl | member
      · rfl
      · rw [List.eq_of_mem_replicate member]
        rfl
  -- The reset is of no account here: there are not that many operations at all.
  have few : ∀ first last, before = first ++ last → ticksSinceReset first < 2 ^ 64 := by
    intro first last split
    have length := congrArg List.length split
    rw [List.length_append, List.length_cons, List.length_cons, List.length_replicate] at length
    have := ticksSinceReset_le_length first
    omega
  have spares := interruptsSpareSound_log handlersSpareSound_sweepWriter start before
  obtain ⟨m, run, ticks, upToDate, periods, next⟩ :=
    sweeps_upToDate made leaves few spares (List.append_nil before).symm
  -- The half frame is found by counting, as nothing need be known of the sweeps for that.
  obtain ⟨timed, small⟩ := IsTimed.of_initial made
  obtain ⟨m', run', timed⟩ := timed.exists_run small leaves few spares
  obtain rfl := Except.ok.inj (run.symm.trans run')
  have count : m.ticks.toNat = 44736 := by
    rw [timed.count_eq, List.foldl_cons, List.foldl_cons, foldl_ticksAfter_clocks]
    rfl
  have half : m.devices.sound.frameEvent? = some .half := by
    rw [timed.ready.aligned.frameEvent?_eq, ticks, count]
    decide
  exact ⟨start, made, m, run, ticks, half, upToDate half, periods, next⟩

end Famicom
