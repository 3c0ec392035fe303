import Famicom.Bench.RegisterPicture
import Famicom.Bench.ScriptedProcessor
import Famicom.Proofs.Audio.FrameTiming
import Famicom.Proofs.Console.Calls
import Famicom.Storage.Disk

/-!
# Where the slots of the processor go

Every third tick has a slot for the processor. The copier of sprite pages takes it first, and while
it copies nothing else counts. The slots that it leaves over come in rounds: a clock of the
processor has one of them, and a sample byte has four, in the first of which it is fetched. So a
byte costs the processor four slots, however often the copier comes between them, and while the last
byte does not have them all the console owes it the rest.

## Main definitions

* `SlotUse.IsRound`, `SlotUse.InRounds` — what the slots that the copier leaves over are used for
* `Machine.slotUse?` — what the slot of a tick is used for
* `Machine.SlotStep`, `Machine.Serves` — what a use of a slot is
* `Machine.AccountsFor` — the slots of past ticks

## Main results

* `SlotUse.InRounds.length_add_owed` — rounds add up
* `Machine.SlotStep.inRounds` — one slot
* `Machine.AccountsFor.clock` — one tick
* `Machine.slots_conserved` — every run without resets
-/

namespace Famicom

open Audio

/-! ### Rounds -/

namespace SlotUse

/-- A sample byte is fetched. -/
def isFetch : SlotUse → Bool
  | .fetch _ _ => true
  | _ => false

/-- The uses of slots that belong together, those of the copier apart. -/
inductive IsRound : List SlotUse → Prop
  | processor : IsRound [.processor]
  | fetch (address : UInt16) (byte : UInt8) : IsRound [.fetch address byte, .stall, .stall, .stall]

theorem IsRound.length_eq {r : List SlotUse} (h : IsRound r) :
    r.length = r.count .processor + 4 * r.countP isFetch := by
  cases h <;> rfl

theorem length_flatten_rounds {rounds : List (List SlotUse)} (all : ∀ r ∈ rounds, IsRound r) :
    rounds.flatten.length =
      rounds.flatten.count .processor + 4 * rounds.flatten.countP isFetch := by
  induction rounds with
  | nil => rfl
  | cons r rounds ih =>
    obtain ⟨first, rest⟩ := List.forall_mem_cons.mp all
    rw [List.flatten_cons, List.length_append, List.count_append, List.countP_append,
      first.length_eq, ih rest]
    omega

/-- The slots that the copier leaves over come in rounds, of whose last one `owed` slots are still
to come. -/
structure InRounds (uses : List SlotUse) (owed : Nat) : Prop where
  owed_le : owed ≤ 3
  rounds : ∃ rounds : List (List SlotUse), (∀ r ∈ rounds, IsRound r) ∧
    uses.filter (!·.isCopier) ++ .replicate owed .stall = rounds.flatten

namespace InRounds

variable {uses : List SlotUse} {owed : Nat}

theorem nil : InRounds [] 0 :=
  ⟨Nat.zero_le 3, [], List.forall_mem_nil _, rfl⟩

/-- The copier postpones what is owed. -/
theorem copier (h : InRounds uses owed) (access : Option BusAccess) :
    InRounds (uses ++ [.copier access]) owed := by
  obtain ⟨rounds, all, split⟩ := h.rounds
  refine ⟨h.owed_le, rounds, all, ?_⟩
  rw [← split, List.filter_append]
  exact congrArg (· ++ _) (List.append_nil _)

theorem stall (h : InRounds uses (owed + 1)) : InRounds (uses ++ [.stall]) owed := by
  obtain ⟨rounds, all, split⟩ := h.rounds
  refine ⟨Nat.le_of_succ_le h.owed_le, rounds, all, ?_⟩
  rw [← split, List.filter_append, List.append_assoc, List.replicate_succ]
  rfl

/-- Nothing is owed when a new round begins. -/
theorem beginRound (h : InRounds uses 0) {use : SlotUse} (other : use.isCopier = false) {owed : Nat}
    (owed_le : owed ≤ 3) (round : IsRound (use :: .replicate owed .stall)) :
    InRounds (uses ++ [use]) owed := by
  obtain ⟨rounds, all, split⟩ := h.rounds
  rw [List.replicate_zero, List.append_nil] at split
  refine ⟨owed_le, rounds ++ [use :: .replicate owed .stall], ?_, ?_⟩
  · exact List.forall_mem_append.mpr ⟨all, List.forall_mem_singleton.mpr round⟩
  · rw [List.filter_append, split, List.flatten_append, List.flatten_singleton,
      List.filter_singleton, other, List.append_assoc]
    rfl

/-- Clocks of the processor, steps of the copier and four slots for each sample byte make up all
slots and those that are owed. -/
theorem length_add_owed (h : InRounds uses owed) :
    uses.length + owed =
      uses.count .processor + uses.countP isCopier + 4 * uses.countP isFetch := by
  obtain ⟨rounds, all, split⟩ := h.rounds
  have added := length_flatten_rounds all
  -- Rounds have neither steps of the copier nor, in the slots that are owed, clocks or fetches.
  have others : (uses.filter (!·.isCopier)).length + uses.countP isCopier = uses.length := by
    rw [← List.countP_eq_length_filter, Nat.add_comm]
    simpa using (uses.length_eq_countP_add_countP isCopier).symm
  have processor : (uses.filter (!·.isCopier)).count .processor = uses.count .processor :=
    List.count_filter rfl
  have fetch : (uses.filter (!·.isCopier)).countP isFetch = uses.countP isFetch := by
    rw [List.countP_filter]
    exact List.countP_congr fun use _ => by cases use <;> simp [isFetch, isCopier]
  have no_processor : (if SlotUse.stall == .processor then owed else 0) = 0 := rfl
  have no_fetch : (if isFetch .stall then owed else 0) = 0 := rfl
  rw [← split, List.length_append, List.length_replicate, List.count_append, List.countP_append,
    processor, fetch, List.countP_replicate, List.count_replicate, no_processor, no_fetch] at added
  omega

end InRounds

end SlotUse

/-! ### What is counted -/

variable {π δ : Type} [PictureUnit π]

namespace Devices

@[simp] theorem stall_read (d : Devices π δ) (address : UInt16) (peek : Bool) :
    (d.read address peek).2.stall = d.stall := by
  obtain ⟨_, _, _, reads⟩ := d.exists_read address peek
  rw [reads]

variable [FileStore δ]

@[simp] theorem stall_write (d : Devices π δ) (address : UInt16) (data : UInt8) :
    (d.write address data).stall = d.stall := by
  by_cases below : address < cartridgeStart
  · rw [d.write_eq_writeConsole data below]
    unfold writeConsole
    split_ifs
    · rfl
    · obtain ⟨_, _, writes⟩ := d.exists_writePicture (address &&& 0x0007) data
      rw [writes]
    · exact d.stall_read 0x2003 false
    · rfl
    · rfl
    · rfl
  · obtain ⟨_, _, writes⟩ := d.exists_write_of_le data (UInt16.not_lt.mp below)
    rw [writes]

@[simp] theorem stall_perform (d : Devices π δ) (access : BusAccess) :
    (d.perform access).stall = d.stall := by
  cases access with
  | read address peek _ => exact d.stall_read address peek
  | write address data => exact d.stall_write address data
  | startCopy page _ => exact d.stall_write copierRegister page

theorem stall_foldl_perform (accesses : List BusAccess) (d : Devices π δ) :
    (accesses.foldl perform d).stall = d.stall :=
  foldl_perform_invariant (P := fun d' => d'.stall = d.stall)
    (fun access _ d' same => (d'.stall_perform access).trans same) rfl

@[simp] theorem stall_stepSpriteDma (d : Devices π δ) (tick : UInt64) :
    (d.stepSpriteDma tick).stall = d.stall := by
  obtain ⟨dma, log, steps⟩ := d.exists_stepSpriteDma tick
  rw [steps]
  cases d.copierAccess? tick with
  | none => rfl
  | some access => exact d.stall_perform access

end Devices

namespace Machine

variable {κ : Type} [Processor κ]

/-- The same tick, with the same debt of slots. -/
structure SameCount (m m' : Machine κ π δ) : Prop where
  ticks : m'.ticks = m.ticks
  stall : m'.devices.stall = m.devices.stall

section SameCount

variable {m m' m'' : Machine κ π δ}

omit [PictureUnit π] [Processor κ] in
theorem SameCount.trans (h : m.SameCount m') (h' : m'.SameCount m'') : m.SameCount m'' :=
  ⟨h'.ticks.trans h.ticks, h'.stall.trans h.stall⟩

omit [Processor κ] in
theorem sameCount_of_clockSound (run : m.clockPicture.clockSound = .ok m') : m.SameCount m' := by
  obtain ⟨_, _, _, rfl⟩ := exists_of_clockSound run
  exact ⟨rfl, rfl⟩

variable [FileStore δ]

omit [Processor κ] in
theorem sameCount_runProcessor (m : Machine κ π δ) (program : BusProgram κ) :
    m.SameCount (m.runProcessor program) := by
  refine ⟨rfl, ?_⟩
  rw [devices_runProcessor]
  exact Devices.stall_foldl_perform _ _

theorem IsPoll.sameCount {told : List Happening} (h : m.IsPoll told m') : m.SameCount m' := by
  cases h with
  | quiet picture cartridge => exact ⟨rfl, rfl⟩
  | interrupt picture cartridge program _ =>
    have ran := sameCount_runProcessor (m.mapDevices fun d => { d with picture, cartridge }) program
    exact ⟨ran.ticks, ran.stall⟩

theorem sameCount_poll (m : Machine κ π δ) : m.SameCount m.poll :=
  m.isPoll_nmi.sameCount.trans
    (m.pollNmi.isPoll_cartridgeIrq.sameCount.trans
      m.pollNmi.pollCartridgeIrq.isPoll_soundIrq.sameCount)

omit [PictureUnit π] [Processor κ] [FileStore δ] in
theorem sameCount_sampleAudio (m : Machine κ π δ) : m.SameCount m.sampleAudio.2 := by
  obtain ⟨_, _, _, sampled⟩ := m.exists_sampleAudio
  rw [sampled]
  exact ⟨rfl, rfl⟩

/-- Nothing but ticks and resets counts. -/
theorem sameCount_of_apply {op : Operation κ π δ} (other : op ≠ .clock)
    (unreset : m.resetsOn (.once op) = false) (run : m.apply op = .ok m') : m.SameCount m' := by
  cases op with
  | clock => exact absurd rfl other
  | reset => cases unreset
  | load path =>
    rw [apply_load] at run
    change (Cartridge.openFile path m.settings.saveDirectory m.devices.store).isOk = false
      at unreset
    split at run
    · rename_i opened
      rw [opened] at unreset
      cases unreset
    · obtain rfl := Except.ok.inj run
      exact ⟨rfl, rfl⟩
  | read address peek =>
    obtain rfl := Except.ok.inj run
    exact ⟨rfl, m.devices.stall_read address peek⟩
  | write address data =>
    obtain rfl := Except.ok.inj run
    exact ⟨rfl, m.devices.stall_write address data⟩
  | press number buttons =>
    obtain rfl := Except.ok.inj run
    unfold press
    split <;> exact ⟨rfl, rfl⟩
  | mapSound f =>
    obtain ⟨sound, -, moved⟩ := bind_eq_ok.mp run
    obtain rfl := Except.ok.inj moved
    exact ⟨rfl, rfl⟩
  | mapCartridge f =>
    obtain rfl := Except.ok.inj run
    refine ⟨rfl, ?_⟩
    unfold mapDevices
    dsimp only
    split <;> rfl
  | insert _ | setSampleRate _ | mapProcessor _ | mapPicture _ =>
    obtain rfl := Except.ok.inj run
    exact ⟨rfl, rfl⟩

end SameCount

/-! ### Slots -/

variable [FileStore δ]

/-- What a slot is used for, and what that is. It goes to the copier while it copies, then to a
sample byte that still takes slots, then to one that is asked for, and else to the processor. -/
inductive SlotStep (m : Machine κ π δ) : Option SlotUse → Machine κ π δ → Prop
  | none (between : m.ticks % 3 ≠ 0) : SlotStep m none m
  | copier (due : m.ticks % 3 = 0) (active : m.devices.dma.isActive = true) :
    SlotStep m (some (.copier (m.devices.copierAccess? m.ticks)))
      (m.mapDevices (·.stepSpriteDma m.ticks))
  | stall (due : m.ticks % 3 = 0) (idle : m.devices.dma.isActive = false)
    (owing : 0 < m.devices.stall) :
    SlotStep m (some .stall) (m.mapDevices fun d => { d with stall := d.stall - 1 })
  | fetch (due : m.ticks % 3 = 0) (idle : m.devices.dma.isActive = false)
    (even : m.devices.stall = 0) {address : UInt16}
    (pending : m.devices.sound.fetchAddress? = some address) :
    SlotStep m (some (.fetch address (m.devices.read address false).1))
      (m.mapDevices fun d =>
        { (d.read address false).2 with
          sound := (d.read address false).2.sound.deliver (d.read address false).1
          stall := 3 })
  | processor (due : m.ticks % 3 = 0) (idle : m.devices.dma.isActive = false)
    (even : m.devices.stall = 0) (quiet : m.devices.sound.fetchAddress? = Option.none) :
    SlotStep m (some .processor) (m.countInstructions.runProcessor (Processor.clock m.processor))

/-- What the slot of a tick is used for, if the tick has a slot. -/
def slotUse? (m : Machine κ π δ) : Option SlotUse :=
  match m.clockPicture.clockSound with
  | .ok late => if late.ticks % 3 = 0 then some (late.devices.slotUse late.ticks) else none
  | .error _ => none

/-- The tick of a console has a result. Its slot is what its use stands for, and apart from it the
processor is only interrupted. -/
def Serves (m : Machine κ π δ) : Prop :=
  ∃ late after, m.clockPicture.clockSound = .ok late ∧ late.SlotStep m.slotUse? after ∧
    m.clock = .ok (after.sampleAudio.1,
      { after.sampleAudio.2.poll with ticks := after.sampleAudio.2.poll.ticks + 1 })

theorem slotStep_slot (m : Machine κ π δ) :
    m.SlotStep (if m.ticks % 3 = 0 then some (m.devices.slotUse m.ticks) else none) m.slot := by
  unfold slot
  split
  · rename_i due
    rw [useSlot_eq]
    unfold Devices.slotUse
    cases active : m.devices.dma.isActive with
    | true => exact .copier due active
    | false =>
      simp only [Bool.false_eq_true, if_false]
      by_cases owing : 0 < m.devices.stall
      · rw [if_pos owing]
        exact .stall due active owing
      · have even : m.devices.stall = 0 := Nat.eq_zero_of_not_pos owing
        rw [if_neg owing]
        cases pending : m.devices.sound.fetchAddress? with
        | none => exact .processor due active even pending
        | some address => exact .fetch due active even pending
  · rename_i between
    exact .none between

namespace SlotStep

variable {m m' : Machine κ π δ} {use : Option SlotUse}

theorem isSome_iff (h : m.SlotStep use m') : use.isSome = true ↔ m.ticks % 3 = 0 := by
  cases h with
  | none between => simp only [Option.isSome_none, Bool.false_eq_true, between]
  | copier due _ | stall due _ _ | fetch due _ _ _ | processor due _ _ _ =>
    simp only [Option.isSome_some, due]

/-- A step that begins a round owes the rest of it, and a step that takes up a slot that is owed
owes one less. -/
theorem inRounds (h : m.SlotStep use m') {uses : List SlotUse}
    (before : SlotUse.InRounds uses m.devices.stall) :
    SlotUse.InRounds (uses ++ use.toList) m'.devices.stall := by
  cases h with
  | none _ => rwa [Option.toList_none, List.append_nil]
  | copier _ _ =>
    change SlotUse.InRounds _ (m.devices.stepSpriteDma m.ticks).stall
    rw [Devices.stall_stepSpriteDma]
    exact before.copier _
  | stall _ _ owing =>
    change SlotUse.InRounds _ (m.devices.stall - 1)
    rw [← Nat.sub_add_cancel owing] at before
    exact before.stall
  | @fetch _ _ even address _ =>
    rw [even] at before
    exact before.beginRound rfl (Nat.le_refl 3) (.fetch address _)
  | processor _ _ even _ =>
    have kept := (sameCount_runProcessor m.countInstructions (Processor.clock m.processor)).stall
    rw [kept, show m.countInstructions.devices.stall = 0 from even]
    rw [even] at before
    exact before.beginRound rfl (Nat.zero_le 3) .processor

end SlotStep

/-! ### Accounts -/

/-- The slots of past ticks, from a tick with number zero on. -/
structure AccountsFor (m : Machine κ π δ) (past : List (Machine κ π δ)) : Prop where
  ticks : m.ticks = UInt64.ofNat past.length
  served : ∀ tick ∈ past, tick.Serves
  /-- Every third tick has a slot. -/
  due : ∀ i (h : i < past.length), past[i].slotUse?.isSome = true ↔ i % 3 = 0
  length : (past.filterMap slotUse?).length = (past.length + 2) / 3
  inRounds : SlotUse.InRounds (past.filterMap slotUse?) m.devices.stall

namespace AccountsFor

variable {m m' : Machine κ π δ} {past : List (Machine κ π δ)}

theorem of_sameCount (h : m.AccountsFor past) (same : m.SameCount m') : m'.AccountsFor past where
  ticks := same.ticks.trans h.ticks
  served := h.served
  due := h.due
  length := h.length
  inRounds := same.stall ▸ h.inRounds

/-- One more tick. -/
theorem clock (h : m.AccountsFor past) (few : past.length < 2 ^ 64) {sampled : Bool}
    (run : m.clock = .ok (sampled, m')) : m'.AccountsFor (past ++ [m]) := by
  have phases := run
  rw [clock_eq] at phases
  obtain ⟨late, clocked, rest⟩ := bind_eq_ok.mp phases
  obtain ⟨rfl, rfl⟩ := Prod.mk.inj (Except.ok.inj rest)
  have use : m.slotUse? =
      if late.ticks % 3 = 0 then some (late.devices.slotUse late.ticks) else none := by
    rw [slotUse?, clocked]
  have step : late.SlotStep m.slotUse? late.slot := use ▸ late.slotStep_slot
  -- What comes before the slot in a tick, and what comes after it, leaves number and debt alone.
  have early := sameCount_of_clockSound clocked
  have polled := (sameCount_sampleAudio late.slot).trans (sameCount_poll _)
  have third : m.slotUse?.isSome = true ↔ past.length % 3 = 0 := by
    rw [step.isSome_iff, early.ticks, mod_eq_zero_iff_toNat, h.ticks, UInt64.toNat_ofNat',
      Nat.mod_eq_of_lt few]
    rfl
  have uses : (past ++ [m]).filterMap slotUse? = past.filterMap slotUse? ++ m.slotUse?.toList := by
    rw [List.filterMap_append, List.filterMap_eq_flatMap_toList slotUse? [m],
      List.flatMap_singleton]
  refine ⟨?_, ?_, ?_, ?_, ?_⟩
  · change late.slot.sampleAudio.2.poll.ticks + 1 = _
    rw [polled.ticks, ticks_slot, early.ticks, h.ticks, List.length_append, UInt64.ofNat_add]
    rfl
  · exact List.forall_mem_append.mpr
      ⟨h.served, List.forall_mem_singleton.mpr ⟨late, late.slot, clocked, step, run⟩⟩
  · intro i small
    by_cases earlier : i < past.length
    · rw [List.getElem_append_left earlier]
      exact h.due i earlier
    · obtain rfl : i = past.length := by
        rw [List.length_append, List.length_singleton] at small
        omega
      rw [List.getElem_concat_length rfl]
      exact third
  · rw [uses, List.length_append, h.length, List.length_append, List.length_singleton]
    cases found : m.slotUse? with
    | none =>
      rw [found] at third
      simp only [Option.isSome_none, Bool.false_eq_true, false_iff] at third
      simp only [Option.toList_none, List.length_nil]
      omega
    | some use =>
      rw [found] at third
      simp only [Option.isSome_some, true_iff] at third
      simp only [Option.toList_some, List.length_singleton]
      omega
  · change SlotUse.InRounds _ late.slot.sampleAudio.2.poll.devices.stall
    rw [uses, polled.stall]
    exact step.inRounds (early.stall ▸ h.inRounds)

end AccountsFor

/-- A console at power-on or after a reset. -/
inductive IsFresh : Machine κ π δ → Prop
  | initial {processor : κ} {picture : π} {store : δ} {settings : Settings} {m : Machine κ π δ}
    (made : Machine.initial processor picture store settings = .ok m) : IsFresh m
  | reset {before m : Machine κ π δ} (done : before.reset = .ok m) : IsFresh m

theorem IsFresh.accountsFor {m : Machine κ π δ} (fresh : m.IsFresh) : m.AccountsFor [] := by
  obtain ⟨ticks, stall⟩ : m.ticks = 0 ∧ m.devices.stall = 0 := by
    cases fresh with
    | initial made =>
      obtain ⟨sound, -, made⟩ := bind_eq_ok.mp made
      obtain rfl := Except.ok.inj made
      exact ⟨rfl, rfl⟩
    | reset done =>
      obtain ⟨sound, -, done⟩ := bind_eq_ok.mp done
      obtain rfl := Except.ok.inj done
      exact ⟨rfl, rfl⟩
  refine ⟨ticks, List.forall_mem_nil _, nofun, ?_, ?_⟩
  · simp only [List.filterMap_nil, List.length_nil, Nat.zero_add, Nat.reduceDiv]
  · rw [stall]
    exact .nil

/-- Ticks are accounted for as long as they can be counted. -/
theorem tickInvariant_accountsFor : TickInvariant fun (m : Machine κ π δ) past =>
    past.length < 2 ^ 64 → m.AccountsFor past where
  clock := by
    intro m past sampled m' holds run few
    rw [List.length_append, List.length_singleton] at few
    exact (holds (by omega)).clock (by omega) run
  apply holds other unreset run few :=
    (holds few).of_sameCount (sameCount_of_apply other unreset run)
  record _ holds few := (holds few).of_sameCount ⟨rfl, rfl⟩

/-- **Slots are conserved.** From power-on or a reset on, every third tick has a slot, and each slot
goes to the copier, to a sample byte or to a clock of the processor. The slots that the copier
leaves over come in rounds, so that the clocks, the steps of the copier and four slots for each byte
make up all slots and those that are still owed to the last byte, three at most. -/
theorem slots_conserved {start m : Machine κ π δ} (fresh : start.IsFresh)
    {calls : List (Call κ π δ)}
    (unreset : ∀ s c rest, Visits call start calls s (c :: rest) → s.resetsOn c = false)
    (run : calls.foldlM call start = .ok m) (few : (start.ticking calls).length < 2 ^ 64) :
    m.AccountsFor (start.ticking calls) ∧
      let uses := (start.ticking calls).filterMap slotUse?
      uses.length + m.devices.stall =
        uses.count .processor + uses.countP SlotUse.isCopier +
          4 * uses.countP SlotUse.isFetch := by
  have accounts : m.AccountsFor ([] ++ start.ticking calls) :=
    tickInvariant_accountsFor.run (fun _ => fresh.accountsFor) unreset run few
  exact ⟨accounts, accounts.inRounds.length_add_owed⟩

/-- The processor has two slots, in the second of which it switches the sample player on. A byte is
fetched in the third one and takes the fourth. Then the copier is started, which has the next four
to align, to read and to write, while two are still owed to the byte. -/
theorem slots_conserved_of_fetch :
    let processor : Bench.ScriptedProcessor := { script := [.pause, .write 0x4015 0x10] }
    let ticks (n : Nat) : List (Call Bench.ScriptedProcessor Bench.RegisterPicture Disk) :=
      .replicate n (.once .clock)
    let calls := ticks 10 ++ .once (.write 0x4014 0x02) :: ticks 12
    let uses : List SlotUse := [.processor, .processor, .fetch 0xC000 0x00, .stall, .copier none,
      .copier none, .copier (some (.read 0x0200 false 0x00)), .copier (some (.write 0x2004 0x00))]
    ∃ start m, initial processor {} {} {} = .ok start ∧ calls.foldlM call start = .ok m ∧
      (start.ticking calls).length = 22 ∧ (start.ticking calls).filterMap slotUse? = uses ∧
      m.devices.stall = 2 := by
  intro processor ticks calls uses
  have evaluated : (initial processor {} {} {} >>= fun start => calls.foldlM call start >>= fun _ =>
      .ok ((start.ticking calls).length, (start.ticking calls).filterMap slotUse?)).toOption =
        some (22, uses) := by
    decide +kernel
  simp only [toOption_eq_some, bind_eq_ok] at evaluated
  obtain ⟨start, made, m, run, facts⟩ := evaluated
  obtain ⟨length, used⟩ : (start.ticking calls).length = 22 ∧
      (start.ticking calls).filterMap slotUse? = uses := by
    simpa only [Except.ok.injEq, Prod.mk.injEq] using facts
  -- Neither a tick nor the write is a reset, whatever the state.
  have unreset : ∀ s c rest, Visits call start calls s (c :: rest) → s.resetsOn c = false := by
    rintro s c rest ⟨before, split, -⟩
    have member : c ∈ calls := split ▸ List.mem_append_right before List.mem_cons_self
    rcases List.mem_append.mp member with member | member
    · rw [List.eq_of_mem_replicate member]
      rfl
    · rcases List.mem_cons.mp member with rfl | member
      · rfl
      · rw [List.eq_of_mem_replicate member]
        rfl
  obtain ⟨-, added⟩ := slots_conserved (.initial made) unreset run (by rw [length]; decide)
  rw [used] at added
  exact ⟨start, m, made, run, length, used, Nat.add_left_cancel added⟩

end Machine

end Famicom
