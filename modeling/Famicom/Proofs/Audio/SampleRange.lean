import Famicom.Proofs.Audio.SampleFetches

/-!
# The sample player in range

The sample player counts bits, clocks and bytes down, and an address up, in words that have no room
for one step too many. All of them keep to their ranges, whatever is done to the unit: bits and
clocks are not counted down from zero, the address goes around in the upper half of memory, and no
more bytes are left to fetch than the longest sample has. So every sum, product and difference that
the player finds is the exact one.

One thing takes more, namely that bytes are delivered only when they are asked for: that a player
which is switched off has nothing left to fetch. A byte that nobody asked for ends the sample once
more, and if it loops then it begins again.

## Main definitions

* `DeltaModulation.FetchesInRange` — what is fetched, and the interrupt, are in range
* `DeltaModulation.checkedWrite`, `DeltaModulation.checkedDeliver`, `DeltaModulation.checkedClock` —
  the steps of the voice, which fail where a sum, a product or a difference is not exact
* `Synthesizer.checkedDmc` — the step of the voice that an operation makes

## Main results

* `DeltaModulation.checkedWrite_eq`, `DeltaModulation.checkedDeliver_eq`,
  `DeltaModulation.checkedClock_eq` — the steps that fail are the plain ones
* `Synthesizer.fetchesInRange_of_run`, `Synthesizer.bytesRemaining_eq_zero_of_run` — what every run
  keeps, and what it keeps if it delivers only what is asked for
* `Synthesizer.samplePlayer_stays_inRange` — all ranges together
-/

namespace Famicom.Audio

namespace DeltaModulation

variable {d d' : DeltaModulation}

/-! ### What is fetched -/

/-- What is fetched next lies in the upper half of memory, and no more is left than the longest
sample has; the same holds of the sample that the registers name, which may begin at any time. An
interrupt is asked for only if it may be. -/
structure FetchesInRange (d : DeltaModulation) : Prop where
  address_ge : 0x8000 ≤ d.currentAddress.toNat
  remaining_le : d.bytesRemaining.toNat ≤ 4081
  sampleAddress_ge : 0x8000 ≤ d.sampleAddress.toNat
  sampleLength_le : d.sampleLength.toNat ≤ 4081
  irqEnabled : d.irqFlag = true → d.irqEnabled = true

namespace FetchesInRange

theorem initial : FetchesInRange {} := by
  constructor <;> decide

theorem write (h : d.FetchesInRange) (register : Register) (data : UInt8) :
    (d.write register data).FetchesInRange := by
  cases register with
  | control =>
    -- A write that switches the interrupt off withdraws it.
    have kept : (d.write .control data).irqFlag = true →
        (d.write .control data).irqEnabled = true :=
      fun asks => (Bool.and_eq_true_iff.mp asks).1
    exact { h with irqEnabled := kept }
  | level => exact { h with }
  | address =>
    have place := d.toNat_sampleAddress_write data
    exact { h with sampleAddress_ge := by omega }
  | length =>
    have byte := data.toNat_lt
    have length := d.toNat_sampleLength_write data
    exact { h with sampleLength_le := by omega }

theorem restart (h : d.FetchesInRange) : d.restart.FetchesInRange :=
  { h with address_ge := h.sampleAddress_ge, remaining_le := h.sampleLength_le }

theorem setEnabled (h : d.FetchesInRange) (enabled : Bool) :
    (d.setEnabled enabled).FetchesInRange := by
  -- The switch withdraws the interrupt first; then it drops the sample, begins it, or leaves it.
  have withdrawn : FetchesInRange { d with enabled, irqFlag := false } :=
    { h with irqEnabled := nofun }
  unfold DeltaModulation.setEnabled
  dsimp only
  split
  · exact { withdrawn with remaining_le := Nat.zero_le _ }
  · split
    · exact withdrawn.restart
    · exact withdrawn

theorem finish (h : d.FetchesInRange) : d.finish.FetchesInRange := by
  unfold DeltaModulation.finish
  split
  · exact h.restart
  · split
    · rename_i allowed
      exact { h with irqEnabled := fun _ => allowed }
    · exact h

/-- A byte may come at any time, also when none is left to fetch. -/
theorem deliver (h : d.FetchesInRange) (byte : UInt8) : (d.deliver byte).FetchesInRange := by
  have address : 0x8000 ≤ (nextAddress d.currentAddress).toNat := by
    have before := h.address_ge
    rw [toNat_nextAddress]
    split <;> omega
  have remaining : (if d.bytesRemaining = 0 then 0 else d.bytesRemaining - 1).toNat ≤ 4081 := by
    split
    · exact Nat.zero_le _
    · rename_i more
      have positive := HasFetched.toNat_bytesRemaining_pos more
      have pred : (d.bytesRemaining - 1).toNat = d.bytesRemaining.toNat - 1 :=
        UInt16.toNat_sub_of_le _ _ (UInt16.le_iff_toNat_le.mpr positive)
      have before := h.remaining_le
      omega
  -- The sample may end with this byte, and it ends once more if there was none left.
  unfold DeltaModulation.deliver
  generalize (if d.bytesRemaining = 0 then 0 else d.bytesRemaining - 1) = left at remaining ⊢
  have taken : FetchesInRange { d with
      buffer := some byte
      currentAddress := nextAddress d.currentAddress
      bytesRemaining := left } :=
    { h with address_ge := address, remaining_le := remaining }
  dsimp only
  split
  · exact taken.finish
  · exact taken

theorem tick (h : d.FetchesInRange) {due : Bool} (ticked : d.tick due = .ok d') :
    d'.FetchesInRange := by
  obtain ⟨_, _, _, _, _, _, rfl⟩ := exists_of_tick ticked
  exact { h with }

end FetchesInRange

/-! ### Exact sums, products and differences -/

/-- A register write, which fails if a product or a sum is no word. -/
def checkedWrite (d : DeltaModulation) (register : Register) (data : UInt8) :
    Except Fault DeltaModulation :=
  match register with
  | .control => pure (d.setControl data)
  | .level => pure { d with level := data &&& 0x7F }
  | .address => do
    let offset ← Checked.mul16 data.toUInt16 64
    let sampleAddress ← Checked.add16 0xC000 offset
    pure { d with sampleAddress }
  | .length => do
    let length ← Checked.mul16 data.toUInt16 16
    let sampleLength ← Checked.add16 length 1
    pure { d with sampleLength }

/-- The address after one of a sample, which fails if it is none. -/
def checkedNextAddress (address : UInt16) : Except Fault UInt16 :=
  if address = 0xFFFF then pure 0x8000 else Checked.add16 address 1

/-- The bytes left after one has come, which fails if their number does. -/
def checkedRemaining (remaining : UInt16) : Except Fault UInt16 :=
  if remaining = 0 then pure 0 else Checked.pred16 remaining

/-- Takes a sample byte, which fails if the address or the number of bytes leaves its word. -/
def checkedDeliver (d : DeltaModulation) (byte : UInt8) : Except Fault DeltaModulation := do
  let currentAddress ← checkedNextAddress d.currentAddress
  let bytesRemaining ← checkedRemaining d.bytesRemaining
  let d := { d with buffer := some byte, currentAddress, bytesRemaining }
  pure (if d.bytesRemaining = 0 then d.finish else d)

/-- The level after one bit, which fails if it leaves its word. -/
def checkedNextLevel (level : UInt8) (bit : Bool) : Except Fault UInt8 :=
  if bit then
    if level ≤ 125 then Checked.add8 level 2 else pure level
  else
    if 2 ≤ level then Checked.sub8 level 2 else pure level

/-- The level after the next bit, if one is played. -/
def checkedLevel (d : DeltaModulation) : Except Fault UInt8 :=
  if d.silence then pure d.level else checkedNextLevel d.level (d.shifter &&& 0x01 != 0)

/-- Plays one bit, which fails if the level or the number of bits leaves its word. -/
def checkedPlayBit (d : DeltaModulation) : Except Fault DeltaModulation := do
  let level ← d.checkedLevel
  let bitsRemaining ← Checked.pred8 d.bitsRemaining
  let d := { d with level, shifter := d.shifter >>> 1, bitsRemaining }
  pure (if bitsRemaining = 0 then d.takeBuffer else d)

/-- One processor clock, which fails also if the timer is at zero before it. -/
def checkedClock (d : DeltaModulation) : Except Fault DeltaModulation := do
  let timerCounter ← Checked.pred16 d.timerCounter
  if timerCounter = 0 then d.reloaded.checkedPlayBit else pure { d with timerCounter }

/-- A byte times a small number is a word. -/
theorem toNat_byte_mul (data : UInt8) (factor : UInt16) (small : factor.toNat ≤ 64) :
    (data.toUInt16 * factor).toNat = data.toNat * factor.toNat ∧
      Checked.mul16 data.toUInt16 factor = .ok (data.toUInt16 * factor) := by
  have fits : data.toUInt16.toNat * factor.toNat < 65536 :=
    calc data.toUInt16.toNat * factor.toNat
      _ = data.toNat * factor.toNat := by rw [UInt8.toNat_toUInt16]
      _ ≤ 255 * 64 := Nat.mul_le_mul (Nat.le_of_lt_succ data.toNat_lt) small
      _ < 65536 := by decide
  refine ⟨?_, Checked.mul16_of_lt fits⟩
  rw [UInt16.toNat_mul, Nat.mod_eq_of_lt fits, UInt8.toNat_toUInt16]

/-- The registers have room for the largest address and for the largest length. -/
theorem checkedWrite_eq (d : DeltaModulation) (register : Register) (data : UInt8) :
    d.checkedWrite register data = .ok (d.write register data) := by
  have byte := data.toNat_lt
  cases register with
  | control | level => rfl
  | address =>
    obtain ⟨offset, multiplied⟩ := toNat_byte_mul data 64 (by decide)
    have fits : (0xC000 : UInt16).toNat + (data.toUInt16 * 64).toNat < 65536 := by
      rw [offset]
      change 0xC000 + data.toNat * 64 < 65536
      omega
    simp only [checkedWrite, multiplied, Checked.add16_of_lt fits, bind, Except.bind]
    rfl
  | length =>
    obtain ⟨length, multiplied⟩ := toNat_byte_mul data 16 (by decide)
    have fits : (data.toUInt16 * 16).toNat + (1 : UInt16).toNat < 65536 := by
      rw [length]
      change data.toNat * 16 + 1 < 65536
      omega
    simp only [checkedWrite, multiplied, Checked.add16_of_lt fits, bind, Except.bind]
    rfl

/-- The address goes around before it leaves its word. -/
theorem checkedNextAddress_eq (address : UInt16) :
    checkedNextAddress address = .ok (nextAddress address) := by
  unfold checkedNextAddress nextAddress
  by_cases top : address = 0xFFFF
  · rw [if_pos top, if_pos top]
    rfl
  · have below : address.toNat ≠ 0xFFFF := fun same => top (UInt16.toNat_inj.mp same)
    have word := address.toNat_lt
    have fits : address.toNat + (1 : UInt16).toNat < 65536 := by
      change address.toNat + 1 < 65536
      omega
    rw [if_neg top, if_neg top, Checked.add16_of_lt fits]

/-- Bytes are counted down only from above zero. -/
theorem checkedRemaining_eq (remaining : UInt16) :
    checkedRemaining remaining = .ok (if remaining = 0 then 0 else remaining - 1) := by
  unfold checkedRemaining
  split
  · rfl
  · rename_i more
    exact Checked.pred16_of_ne more

/-- No byte that comes moves anything out of its word. -/
theorem checkedDeliver_eq (d : DeltaModulation) (byte : UInt8) :
    d.checkedDeliver byte = .ok (d.deliver byte) := by
  unfold checkedDeliver
  rw [checkedNextAddress_eq, checkedRemaining_eq]
  rfl

/-- The level stays on its scale. -/
theorem checkedNextLevel_eq (level : UInt8) (bit : Bool) :
    checkedNextLevel level bit = .ok (nextLevel level bit) := by
  unfold checkedNextLevel nextLevel
  cases bit with
  | true =>
    rw [if_pos rfl, if_pos rfl]
    split
    · rename_i low
      have low : level.toNat ≤ 125 := UInt8.le_iff_toNat_le.mp low
      refine Checked.add8_of_lt ?_
      change level.toNat + 2 < 256
      omega
    · rfl
  | false =>
    rw [if_neg Bool.false_ne_true, if_neg Bool.false_ne_true]
    split
    · rename_i high
      exact Checked.sub8_of_le high
    · rfl

theorem checkedLevel_eq (d : DeltaModulation) :
    d.checkedLevel =
      .ok (if d.silence then d.level else nextLevel d.level (d.shifter &&& 0x01 != 0)) := by
  unfold checkedLevel
  split
  · rfl
  · exact checkedNextLevel_eq ..

/-- Playing a bit fails only if there is none left. -/
theorem checkedPlayBit_eq (d : DeltaModulation) : d.checkedPlayBit = d.playBit := by
  unfold checkedPlayBit
  rw [checkedLevel_eq]
  rfl

/-- A timer in its range is counted down only from above zero. -/
theorem checkedClock_eq (timed : d.IsTimed) : d.checkedClock = d.clock := by
  have running : d.timerCounter ≠ 0 := by
    intro zero
    have positive := timed.counter_pos
    rw [zero] at positive
    exact absurd positive (by decide)
  unfold checkedClock clock
  rw [Checked.pred16_of_ne running, if_neg running, checkedPlayBit_eq]
  rfl

end DeltaModulation

namespace Synthesizer

variable {start s : Synthesizer} {ops : List Operation}

/-- What every run keeps of the fetches. -/
theorem fetchesInRange_of_run (begun : start.IsStart) (run : ops.foldlM apply start = .ok s) :
    s.dmc.FetchesInRange :=
  dmc_holds_of_run .initial (fun register data range => range.write register data)
    (fun enabled range => range.setEnabled enabled) (fun _ range => range.deliver _)
    (fun range ticked => range.tick ticked) begun run

/-- If bytes are delivered only when they are asked for, a player that is switched off has nothing
left to fetch. -/
theorem bytesRemaining_eq_zero_of_run (begun : start.IsStart)
    (asked : ∀ t byte rest, Visits apply start ops t (.deliver byte :: rest) →
      t.fetchAddress?.isSome)
    (run : ops.foldlM apply start = .ok s) (off : s.dmc.enabled = false) :
    s.dmc.bytesRemaining = 0 := by
  refine dmc_holds_of_run (P := fun d => d.enabled = false → d.bytesRemaining = 0)
    (fun _ => rfl) ?_ ?_ ?_ ?_ begun run off
  · intro d register data silent
    cases register <;> exact silent
  · intro d enabled _ off
    cases enabled with
    | false => rfl
    | true =>
      obtain ⟨_, _, set⟩ := d.exists_setEnabled true
      rw [set] at off
      cases off
  · intro t byte rest visit _ off
    -- Only a player that is on asks for bytes, and a byte leaves it on.
    have awaits : t.dmc.awaitsByte = true :=
      t.dmc.isSome_fetchAddress?.symm.trans (asked t byte rest visit)
    simp only [DeltaModulation.awaitsByte, Bool.and_eq_true] at awaits
    obtain ⟨_, _, _, delivered⟩ := t.dmc.exists_deliver byte
    rw [delivered] at off
    exact absurd (off.symm.trans awaits.1.1) Bool.false_ne_true
  · intro d d' due silent ticked
    obtain ⟨_, _, _, _, _, _, rfl⟩ := DeltaModulation.exists_of_tick ticked
    exact silent

/-- A delivery that nobody asked for begins a sample that loops, although the voice is off. -/
example : (({ looping := true } : DeltaModulation).deliver 0xAA).bytesRemaining = 1 := rfl

/-- The step of the sample player that an operation makes, which fails if a sum, a product or a
difference leaves its word. -/
def checkedDmc (s : Synthesizer) : Operation → Except Fault DeltaModulation
  | .write address data =>
    match Register.ofAddress? address with
    | some (.dmc r) => s.dmc.checkedWrite r data
    | some .status => pure (s.dmc.setEnabled (data &&& 0x10 != 0))
    | _ => pure s.dmc
  | .clock => if s.clocksDmc then s.dmc.checkedClock else pure s.dmc
  | .deliver byte => s.dmc.checkedDeliver byte
  | .reset => pure {}
  | .sample | .setHeard _ _ | .setTapCapacity _ | .drain _ => pure s.dmc

/-- No step of a sample player whose timer is in its range fails, and it is the one that the unit
makes. -/
theorem exists_checkedDmc (timed : s.dmc.IsTimed) (op : Operation) :
    ∃ d, s.checkedDmc op = .ok d ∧ ∀ s', s.apply op = .ok s' → s'.dmc = d := by
  cases op with
  | write address data =>
    refine ⟨(s.write address data).dmc, ?_, fun s' applied => Except.ok.inj applied ▸ rfl⟩
    rw [dmc_write]
    unfold checkedDmc
    dsimp only
    cases Register.ofAddress? address with
    | none => rfl
    | some register =>
      cases register with
      | dmc r => exact s.dmc.checkedWrite_eq r data
      | status | pulse1 _ | pulse2 _ | triangle _ | noise _ => rfl
  | clock =>
    -- The voice has its step even if a pulse voice fails in the same tick.
    obtain ⟨d, ticked, -⟩ := DeltaModulation.exists_tick timed.bits_ne_zero s.clocksDmc
    refine ⟨d, ?_, fun s' applied => ?_⟩
    · rw [checkedDmc, DeltaModulation.checkedClock_eq timed]
      exact ticked
    · exact Except.ok.inj ((clock_eq_ok_iff.mp applied).dmc.symm.trans ticked)
  | deliver byte =>
    exact ⟨_, s.dmc.checkedDeliver_eq byte, fun s' applied => Except.ok.inj applied ▸ rfl⟩
  | reset =>
    refine ⟨{}, rfl, fun s' applied => ?_⟩
    obtain ⟨switches, taps, rfl⟩ := (isStart_of_reset applied).exists_eq
    rfl
  | sample | setHeard _ _ | setTapCapacity _ | drain _ =>
    exact ⟨s.dmc, rfl, fun s' applied => Except.ok.inj applied ▸ rfl⟩

/-- **The sample player stays in range.** Whatever was done to a unit since power-on, bytes that
nobody asked for included, the address that its sample player fetches next is in the upper half of
memory, and so is any that it asks for; no more bytes are left than the longest sample has; bits and
clocks are left, eight and 428 of them at most; and it asks for an interrupt only if it may. Then
whatever is done next, it finds no sum, product or difference that leaves its word. If bytes were
delivered only when they were asked for, then a player that is switched off has none left, which is
what the status register tells. -/
theorem samplePlayer_stays_inRange (begun : start.IsStart)
    (run : ops.foldlM apply start = .ok s) :
    (0x8000 ≤ s.dmc.currentAddress.toNat ∧ s.dmc.currentAddress.toNat ≤ 0xFFFF) ∧
      (∀ address, s.fetchAddress? = some address →
        0x8000 ≤ address.toNat ∧ address.toNat ≤ 0xFFFF) ∧
      s.dmc.bytesRemaining.toNat ≤ 4081 ∧
      (1 ≤ s.dmc.bitsRemaining.toNat ∧ s.dmc.bitsRemaining.toNat ≤ 8) ∧
      (1 ≤ s.dmc.timerCounter.toNat ∧ s.dmc.timerCounter.toNat ≤ 428) ∧
      (s.irqPending = true → s.dmc.irqEnabled = true) ∧
      (∀ op, ∃ d, s.checkedDmc op = .ok d ∧ ∀ s', s.apply op = .ok s' → s'.dmc = d) ∧
      ((∀ t byte rest, Visits apply start ops t (.deliver byte :: rest) →
          t.fetchAddress?.isSome) →
        s.dmc.enabled = false → s.dmc.bytesRemaining = 0 ∧ s.status &&& 0x10 = 0) := by
  -- What is fetched and what is played keep to their ranges without one another.
  have fetches := fetchesInRange_of_run begun run
  have timed := isTimed_of_run begun run
  have top : ∀ address : UInt16, address.toNat ≤ 0xFFFF :=
    fun address => Nat.le_of_lt_succ address.toNat_lt
  refine ⟨⟨fetches.address_ge, top _⟩, ?_, fetches.remaining_le, ⟨timed.bits_pos, timed.bits_le⟩,
    ⟨timed.counter_pos, timed.counter_le⟩, fetches.irqEnabled, exists_checkedDmc timed, ?_⟩
  · intro address asks
    have next : s.dmc.fetchAddress? = some address := asks
    unfold DeltaModulation.fetchAddress? at next
    split at next
    · obtain rfl := Option.some.inj next
      exact ⟨fetches.address_ge, top _⟩
    · cases next
  · intro asked off
    have silent := bytesRemaining_eq_zero_of_run begun asked run off
    refine ⟨silent, ?_⟩
    by_contra told
    have more := s.status_bits.2.2.2.2.1.mp told
    rw [silent] at more
    exact absurd more (by decide)

/-- A player that is switched off in the middle of the longest sample. -/
theorem samplePlayer_stays_inRange_of_switchedOff :
    let ops : List Operation :=
      [.write 0x4013 0xFF, .write 0x4015 0x10, .deliver 0xAA, .clock, .write 0x4015 0x00]
    ∃ start s, initial 1024 = .ok start ∧ ops.foldlM apply start = .ok s ∧
      s.dmc.enabled = false ∧ s.dmc.bytesRemaining = 0 ∧ s.status &&& 0x10 = 0 ∧
      1 ≤ s.dmc.timerCounter.toNat ∧ s.dmc.timerCounter.toNat ≤ 428 ∧
      ∃ d, s.checkedDmc (.deliver 0x55) = .ok d := by
  intro ops
  obtain ⟨start, made⟩ : ∃ start, initial 1024 = .ok start := ⟨_, rfl⟩
  have begun := isStart_of_initial made
  have inRange := (((InRange.of_isStart begun).write 0x4013 0xFF).write 0x4015 0x10).deliver 0xAA
  obtain ⟨s, clocked, -⟩ := inRange.exists_clock
  have run : ops.foldlM apply start = .ok (s.write 0x4015 0x00) := by
    simp only [ops, foldlM_cons_eq_ok, foldlM_nil_eq_ok]
    exact ⟨_, rfl, _, rfl, _, rfl, s, clocked, _, rfl, rfl⟩
  have asks : ((start.write 0x4013 0xFF).write 0x4015 0x10).fetchAddress?.isSome := by
    obtain ⟨switches, taps, rfl⟩ := begun.exists_eq
    rfl
  have asked : ∀ t byte rest, Visits apply start ops t (.deliver byte :: rest) →
      t.fetchAddress?.isSome := by
    intro t byte rest visit
    -- The third operation is the only delivery.
    rcases visits_cons.mp visit with ⟨-, here⟩ | ⟨_, first, visit⟩
    · cases here
    obtain rfl := Except.ok.inj first
    rcases visits_cons.mp visit with ⟨-, here⟩ | ⟨_, second, visit⟩
    · cases here
    obtain rfl := Except.ok.inj second
    rcases visits_cons.mp visit with ⟨rfl, -⟩ | ⟨_, -, visit⟩
    · exact asks
    rcases visits_cons.mp visit with ⟨-, here⟩ | ⟨_, -, visit⟩
    · cases here
    rcases visits_cons.mp visit with ⟨-, here⟩ | ⟨_, -, visit⟩
    · cases here
    · cases (visits_nil.mp visit).2
  obtain ⟨-, -, -, -, ⟨counter_pos, counter_le⟩, -, exact, off⟩ :=
    samplePlayer_stays_inRange begun run
  obtain ⟨silent, status⟩ := off asked rfl
  obtain ⟨d, checked, -⟩ := exact (.deliver 0x55)
  exact ⟨start, _, made, run, rfl, silent, status, counter_pos, counter_le, d, checked⟩

end Synthesizer

end Famicom.Audio
