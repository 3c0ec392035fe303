import Famicom.Proofs.Audio.Registers
import Famicom.Proofs.Audio.SampleTimer

/-!
# The fetches of a sample

A sample that is switched on is fetched byte by byte from where the registers say it begins. Memory
beyond its top goes on from its middle. When its last byte has come, a sample that loops begins
again, and one that does not is over, and asks for an interrupt if it may. Only deliveries count:
bytes may come at any time that one is asked for, and neither clocks nor further switching of the
voices while bytes remain move the fetches.

## Main definitions

* `Sample` — what the registers say about a sample
* `DeltaModulation.HasFetched` — a voice has fetched a number of bytes of a sample
* `Synthesizer.sampleOfHistory` — what a history leaves in the registers of the sample
* `Synthesizer.KeepsSample` — the operations that leave the sample to its fetches
* `Synthesizer.AsksFor` — a unit that asks for a byte of its sample

## Main results

* `DeltaModulation.HasFetched.deliver` — one fetch
* `Synthesizer.hasFetched_apply`, `Synthesizer.hasFetched_run` — one operation, and every run
* `Synthesizer.AsksFor.exists_rounds` — a sample can be fetched byte by byte
* `Synthesizer.fetches_walk_sample` — where the fetches of a sample go, and when they end
-/

namespace Famicom.Audio

/-- What the registers say about a sample. -/
structure Sample where
  address : UInt16
  length : UInt16
  looping : Bool
  irqEnabled : Bool
  deriving DecidableEq, Repr

namespace Sample

/-- The samples that registers can name: they lie in the upper half of memory and have a byte at
least. -/
structure IsSound (m : Sample) : Prop where
  address_ge : 0x8000 ≤ m.address.toNat
  length_pos : 0 < m.length.toNat

/-- How far the fetches are in the sample, after a number of them. -/
def position (m : Sample) (k : Nat) : Nat :=
  if m.looping then k % m.length.toNat else k

/-- The address of a byte of the sample. -/
def addressOf (m : Sample) (i : Nat) : Nat :=
  0x8000 + (m.address.toNat - 0x8000 + i) % 0x8000

/-- The sample is over after a number of fetches. -/
def isOver (m : Sample) (k : Nat) : Bool :=
  !m.looping && k = m.length.toNat

variable {m : Sample}

theorem addressOf_zero (sound : m.IsSound) : m.addressOf 0 = m.address.toNat := by
  have word := m.address.toNat_lt
  have upper := sound.address_ge
  unfold addressOf
  omega

theorem addressOf_succ (i : Nat) :
    m.addressOf (i + 1) =
      if m.addressOf i = 0xFFFF then 0x8000 else m.addressOf i + 1 := by
  unfold addressOf
  split <;> omega

theorem position_zero (m : Sample) : m.position 0 = 0 := by
  unfold position
  split <;> simp

/-- A sample that loops always has a byte to fetch. -/
theorem position_lt_iff (sound : m.IsSound) (k : Nat) :
    m.position k < m.length.toNat ↔ m.looping = true ∨ k < m.length.toNat := by
  unfold position
  cases m.looping with
  | true => simpa using Nat.mod_lt k sound.length_pos
  | false => simp

/-- The fetch of the last byte of a sample that loops leads to its start. -/
theorem position_succ_of_last {k : Nat} (looping : m.looping = true)
    (last : m.position k + 1 = m.length.toNat) : m.position (k + 1) = 0 := by
  rw [position, if_pos looping] at last
  rw [position, if_pos looping, ← Nat.mod_add_mod, last, Nat.mod_self]

theorem position_succ {k : Nat} (more : m.position k + 1 < m.length.toNat) :
    m.position (k + 1) = m.position k + 1 := by
  unfold position at *
  split at more
  · rename_i looping
    rw [if_pos looping, if_pos looping, ← Nat.mod_add_mod, Nat.mod_eq_of_lt more]
  · rename_i once
    rw [if_neg once, if_neg once]

theorem isOver_of_lt {k : Nat} (more : m.position k < m.length.toNat) : m.isOver k = false := by
  unfold isOver
  unfold position at more
  cases looping : m.looping with
  | true => rfl
  | false =>
    rw [looping, if_neg Bool.false_ne_true] at more
    simpa using Nat.ne_of_lt more

theorem isOver_succ_of_last {k : Nat} (last : m.position k + 1 = m.length.toNat) :
    m.isOver (k + 1) = !m.looping := by
  unfold isOver
  unfold position at last
  cases looping : m.looping with
  | true => rfl
  | false =>
    rw [looping, if_neg Bool.false_ne_true] at last
    simpa using last

end Sample

namespace DeltaModulation

/-- What the registers of the voice say about its sample. -/
def sample (d : DeltaModulation) : Sample :=
  ⟨d.sampleAddress, d.sampleLength, d.looping, d.irqEnabled⟩

/-- Samples begin at multiples of 64 in the highest quarter of memory. -/
theorem toNat_sampleAddress_write (d : DeltaModulation) (data : UInt8) :
    (d.write .address data).sampleAddress.toNat = 0xC000 + 64 * data.toNat := by
  have byte := data.toNat_lt
  simp only [write, UInt16.toNat_add, UInt16.toNat_mul, UInt8.toNat_toUInt16]
  change (0xC000 + data.toNat * 64 % 65536) % 65536 = _
  omega

/-- Samples have one byte more than a multiple of 16. -/
theorem toNat_sampleLength_write (d : DeltaModulation) (data : UInt8) :
    (d.write .length data).sampleLength.toNat = 16 * data.toNat + 1 := by
  have byte := data.toNat_lt
  simp only [write, UInt16.toNat_add, UInt16.toNat_mul, UInt8.toNat_toUInt16]
  change (data.toNat * 16 % 65536 + 1) % 65536 = _
  omega

/-- The voice has fetched a number of bytes of a sample since it was switched on. -/
structure HasFetched (d : DeltaModulation) (m : Sample) (k : Nat) : Prop where
  sample_eq : d.sample = m
  enabled : d.enabled = true
  remaining : d.bytesRemaining.toNat + m.position k = m.length.toNat
  address : d.currentAddress.toNat = m.addressOf (m.position k)
  irqFlag : d.irqFlag = (m.irqEnabled && m.isOver k)

theorem toNat_nextAddress (address : UInt16) :
    (nextAddress address).toNat =
      if address.toNat = 0xFFFF then 0x8000 else address.toNat + 1 := by
  have top : address = 0xFFFF ↔ address.toNat = 0xFFFF := by
    rw [← UInt16.toNat_inj]
    rfl
  unfold nextAddress
  by_cases high : address = 0xFFFF
  · rw [if_pos high, if_pos (top.mp high)]
    rfl
  · have low : address.toNat ≠ 0xFFFF := mt top.mpr high
    have word := address.toNat_lt
    rw [if_neg high, if_neg low, UInt16.toNat_add]
    change (address.toNat + 1) % 65536 = _
    omega

/-- The voice with one byte more, before it is seen whether that was the last one. -/
def taking (d : DeltaModulation) (byte : UInt8) : DeltaModulation :=
  { d with
    buffer := some byte
    currentAddress := nextAddress d.currentAddress
    bytesRemaining := d.bytesRemaining - 1 }

theorem deliver_eq {d : DeltaModulation} (more : d.bytesRemaining ≠ 0) (byte : UInt8) :
    d.deliver byte =
      if d.bytesRemaining = 1 then (d.taking byte).finish else d.taking byte := by
  have last : d.bytesRemaining - 1 = 0 ↔ d.bytesRemaining = 1 := by grind
  unfold deliver
  simp only [if_neg more, last]
  rfl

namespace HasFetched

variable {d : DeltaModulation} {m : Sample} {k : Nat}

/-- Switching on a voice that has nothing left to fetch begins its sample. -/
theorem of_setEnabled (sound : d.sample.IsSound) (silent : d.bytesRemaining = 0) :
    (d.setEnabled true).HasFetched d.sample 0 := by
  have begun : d.setEnabled true = { d with enabled := true, irqFlag := false }.restart := by
    simp [setEnabled, silent]
  have early : d.sample.isOver 0 = false := by
    have positive := sound.length_pos
    simp only [Sample.isOver, Bool.and_eq_false_iff, decide_eq_false_iff_not]
    omega
  rw [begun]
  exact {
    sample_eq := rfl
    enabled := rfl
    remaining := by rw [Sample.position_zero]; rfl
    address := by rw [Sample.position_zero, Sample.addressOf_zero sound]; rfl
    irqFlag := by rw [early, Bool.and_false]; rfl }

/-- Bytes are left until the sample is over. -/
theorem bytesRemaining_pos_iff (h : d.HasFetched m k) (sound : m.IsSound) :
    0 < d.bytesRemaining ↔ m.looping = true ∨ k < m.length.toNat := by
  rw [← Sample.position_lt_iff sound, UInt16.lt_iff_toNat_lt, ← h.remaining]
  simp

/-- The voice waits for a byte unless it has one or has fetched them all. -/
theorem isSome_fetchAddress?_iff (h : d.HasFetched m k) (sound : m.IsSound) :
    d.fetchAddress?.isSome ↔ d.buffer = none ∧ (m.looping = true ∨ k < m.length.toNat) := by
  rw [isSome_fetchAddress?, awaitsByte, h.enabled, ← h.bytesRemaining_pos_iff sound]
  simp

theorem toNat_of_fetchAddress?_eq (h : d.HasFetched m k) {address : UInt16}
    (asked : d.fetchAddress? = some address) :
    address.toNat = m.addressOf (m.position k) := by
  rw [fetchAddress?] at asked
  split at asked
  · rw [← Option.some.inj asked, h.address]
  · cases asked

/-- A sample that does not loop is fetched once. -/
theorem le_length (h : d.HasFetched m k) (once : m.looping = false) : k ≤ m.length.toNat := by
  have place : m.position k = k := by simp [Sample.position, once]
  have remaining := h.remaining
  omega

theorem irqFlag_iff (h : d.HasFetched m k) :
    d.irqFlag = true ↔
      m.looping = false ∧ m.irqEnabled = true ∧ k = m.length.toNat := by
  simp only [h.irqFlag, Sample.isOver, Bool.and_eq_true, Bool.not_eq_true', decide_eq_true_iff]
  exact and_left_comm

theorem toNat_bytesRemaining_pos (more : d.bytesRemaining ≠ 0) : 0 < d.bytesRemaining.toNat :=
  Nat.pos_of_ne_zero fun zero => more (UInt16.toNat_inj.mp zero)

/-- Until its last byte has come, a voice has not asked for an interrupt. -/
theorem irqFlag_eq_false (h : d.HasFetched m k) (more : d.bytesRemaining ≠ 0) :
    d.irqFlag = false := by
  have positive := toNat_bytesRemaining_pos more
  have remaining := h.remaining
  rw [h.irqFlag, Sample.isOver_of_lt (by omega), Bool.and_false]

/-- Switching on a voice that has something left to fetch does not begin its sample again. -/
theorem setEnabled (h : d.HasFetched m k) (more : d.bytesRemaining ≠ 0) :
    (d.setEnabled true).HasFetched m k := by
  have kept : d.setEnabled true = { d with enabled := true, irqFlag := false } := by
    simp [DeltaModulation.setEnabled, more]
  rw [kept]
  exact ⟨h.sample_eq, rfl, h.remaining, h.address, (h.irqFlag_eq_false more).symm.trans h.irqFlag⟩

/-- The fetch of a byte after which the sample does not begin again. -/
theorem taking (h : d.HasFetched m k) (more : d.bytesRemaining ≠ 0)
    (next : m.position (k + 1) = m.position k + 1) (byte : UInt8) (irqFlag : Bool)
    (asks : irqFlag = (m.irqEnabled && m.isOver (k + 1))) :
    HasFetched { d.taking byte with irqFlag } m (k + 1) := by
  have positive := toNat_bytesRemaining_pos more
  have pred : (d.bytesRemaining - 1).toNat = d.bytesRemaining.toNat - 1 :=
    UInt16.toNat_sub_of_le _ _ (UInt16.le_iff_toNat_le.mpr positive)
  have remaining := h.remaining
  exact {
    sample_eq := h.sample_eq
    enabled := h.enabled
    remaining := by
      change (d.bytesRemaining - 1).toNat + _ = _
      omega
    address := by
      rw [next, Sample.addressOf_succ, ← h.address]
      exact toNat_nextAddress d.currentAddress
    irqFlag := asks }

/-- The fetch of the last byte, after which a sample that loops begins again. -/
theorem finish_taking (h : d.HasFetched m k) (sound : m.IsSound) (more : d.bytesRemaining ≠ 0)
    (last : m.position k + 1 = m.length.toNat) (byte : UInt8) :
    (d.taking byte).finish.HasFetched m (k + 1) := by
  have quiet := h.irqFlag_eq_false more
  obtain rfl := h.sample_eq
  have ends : d.sample.isOver (k + 1) = !d.looping := Sample.isOver_succ_of_last last
  cases looping : d.looping with
  | true =>
    have again : (d.taking byte).finish = (d.taking byte).restart := if_pos looping
    have first : d.sample.position (k + 1) = 0 := Sample.position_succ_of_last looping last
    rw [again]
    exact {
      sample_eq := rfl
      enabled := h.enabled
      remaining := by rw [first]; rfl
      address := by rw [first, Sample.addressOf_zero sound]; rfl
      irqFlag := by
        rw [ends, looping]
        exact quiet.trans (Bool.and_false _).symm }
  | false =>
    have ended : (d.taking byte).finish = { d.taking byte with irqFlag := d.irqEnabled } := by
      unfold finish
      rw [if_neg (by simp [DeltaModulation.taking, looping])]
      cases asks : d.irqEnabled <;> simp [DeltaModulation.taking, asks, quiet]
    have next : d.sample.position (k + 1) = d.sample.position k + 1 := by
      simp [Sample.position, sample, looping]
    rw [ended]
    exact h.taking more next byte _ (by rw [ends, looping]; exact (Bool.and_true _).symm)

/-- The fetch of a byte. -/
theorem deliver (h : d.HasFetched m k) (sound : m.IsSound) (more : d.bytesRemaining ≠ 0)
    (byte : UInt8) : (d.deliver byte).HasFetched m (k + 1) := by
  have one : d.bytesRemaining = 1 ↔ d.bytesRemaining.toNat = 1 := by
    rw [← UInt16.toNat_inj]
    rfl
  have positive := toNat_bytesRemaining_pos more
  have remaining := h.remaining
  -- Only the last byte leads anywhere else than to the next one.
  rw [deliver_eq more]
  split
  · rename_i last
    rw [one] at last
    exact h.finish_taking sound more (by omega) byte
  · rename_i several
    rw [one] at several
    have next : m.position k + 1 < m.length.toNat := by omega
    have unfinished : m.isOver (k + 1) = false :=
      Sample.isOver_of_lt (by rwa [Sample.position_succ next])
    exact h.taking more (Sample.position_succ next) byte d.irqFlag
      (by rw [h.irqFlag_eq_false more, unfinished, Bool.and_false])

end HasFetched

end DeltaModulation

namespace Synthesizer

/-! ### The registers of a sample -/

/-- What a history leaves in the registers of the sample. -/
def sampleOfHistory (recent : List Operation) : Sample where
  address := 0xC000 + (lastWritten 0x4012 recent).toUInt16 * 64
  length := (lastWritten 0x4013 recent).toUInt16 * 16 + 1
  looping := lastWritten 0x4010 recent &&& 0x40 != 0
  irqEnabled := lastWritten 0x4010 recent &&& 0x80 != 0

theorem toNat_address_sampleOfHistory (recent : List Operation) :
    (sampleOfHistory recent).address.toNat = 0xC000 + 64 * (lastWritten 0x4012 recent).toNat :=
  DeltaModulation.toNat_sampleAddress_write {} (lastWritten 0x4012 recent)

theorem toNat_length_sampleOfHistory (recent : List Operation) :
    (sampleOfHistory recent).length.toNat = 16 * (lastWritten 0x4013 recent).toNat + 1 :=
  DeltaModulation.toNat_sampleLength_write {} (lastWritten 0x4013 recent)

theorem isSound_sampleOfHistory (recent : List Operation) : (sampleOfHistory recent).IsSound where
  address_ge := by
    rw [toNat_address_sampleOfHistory]
    omega
  length_pos := by
    rw [toNat_length_sampleOfHistory]
    omega

/-- A write elsewhere changes nothing of the sample player but its level. -/
theorem exists_dmc_write (s : Synthesizer) {address : UInt16} (data : UInt8)
    (other : address ∉ ([0x4010, 0x4012, 0x4013] : List UInt16)) (switch : address ≠ 0x4015) :
    ∃ level, (s.write address data).dmc = { s.dmc with level } := by
  simp only [List.mem_cons, List.not_mem_nil, or_false, not_or] at other
  obtain ⟨control, place, length⟩ := other
  rw [dmc_write]
  split
  · rename_i r found
    have there := Register.ofAddress?_eq_some_iff.mp found
    cases r with
    | level => exact ⟨_, rfl⟩
    | control => exact absurd there control
    | address => exact absurd there place
    | length => exact absurd there length
  · rename_i found
    exact absurd (Register.ofAddress?_eq_some_iff.mp found) switch
  · exact ⟨_, rfl⟩

/-- Three registers say what the sample is. -/
theorem sample_write_of_notMem (s : Synthesizer) {address : UInt16} (data : UInt8)
    (other : address ∉ ([0x4010, 0x4012, 0x4013] : List UInt16)) :
    (s.write address data).dmc.sample = s.dmc.sample := by
  by_cases switch : address = 0x4015
  · subst switch
    obtain ⟨_, _, set⟩ := s.dmc.exists_setEnabled (data &&& 0x10 != 0)
    have written : (s.write 0x4015 data).dmc = s.dmc.setEnabled (data &&& 0x10 != 0) := rfl
    rw [written, set]
    rfl
  · obtain ⟨_, written⟩ := s.exists_dmc_write data other switch
    rw [written]
    rfl

theorem sample_write (s : Synthesizer) {recent : List Operation}
    (h : s.dmc.sample = sampleOfHistory recent) (address : UInt16) (data : UInt8) :
    (s.write address data).dmc.sample = sampleOfHistory (.write address data :: recent) := by
  by_cases other : address ∉ ([0x4010, 0x4012, 0x4013] : List UInt16)
  · rw [sample_write_of_notMem s data other, h]
    simp only [List.mem_cons, List.not_mem_nil, or_false, not_or] at other
    obtain ⟨control, place, length⟩ := other
    simp only [sampleOfHistory, lastWritten_write_of_ne control, lastWritten_write_of_ne place,
      lastWritten_write_of_ne length]
  · -- Each of the three registers sets its part and leaves the others.
    simp only [List.mem_cons, List.not_mem_nil, or_false, not_not] at other
    rcases other with rfl | rfl | rfl
    · have set : (s.write 0x4010 data).dmc.sample = { s.dmc.sample with
          looping := data &&& 0x40 != 0, irqEnabled := data &&& 0x80 != 0 } := rfl
      rw [set, h]
      simp [sampleOfHistory, lastWritten_write_of_ne]
    · have set : (s.write 0x4012 data).dmc.sample = { s.dmc.sample with
          address := 0xC000 + data.toUInt16 * 64 } := rfl
      rw [set, h]
      simp [sampleOfHistory, lastWritten_write_of_ne]
    · have set : (s.write 0x4013 data).dmc.sample = { s.dmc.sample with
          length := data.toUInt16 * 16 + 1 } := rfl
      rw [set, h]
      simp [sampleOfHistory, lastWritten_write_of_ne]

/-- The registers of the sample hold what was last written to them. -/
theorem sample_eq_of_run {start s : Synthesizer} (begun : start.IsStart) {ops : List Operation}
    (run : ops.foldlM apply start = .ok s) : s.dmc.sample = sampleOfHistory (sinceReset ops) := by
  refine holds_sinceReset (R := fun s recent => s.dmc.sample = sampleOfHistory recent)
    ?_ ?_ begun run
  · intro s begun
    obtain ⟨switches, taps, rfl⟩ := begun.exists_eq
    rfl
  · intro s s' recent op h kept applied
    cases op with
    | write address data =>
      obtain rfl := Except.ok.inj applied
      exact s.sample_write h address data
    | clock =>
      obtain ⟨_, _, _, _, _, _, played⟩ :=
        DeltaModulation.exists_of_tick (clock_eq_ok_iff.mp applied).dmc
      rw [played]
      exact h
    | deliver byte =>
      obtain rfl := Except.ok.inj applied
      obtain ⟨_, _, _, delivered⟩ := s.dmc.exists_deliver byte
      exact (congrArg DeltaModulation.sample delivered).trans h
    | reset => exact absurd rfl kept
    | sample | setHeard _ _ | setTapCapacity _ | drain _ =>
      obtain rfl := Except.ok.inj applied
      exact h

/-! ### Runs -/

/-- The operations that leave a sample to its fetches: no reset, no write to its registers, no
write to the switches but one that leaves it switched on while bytes remain, and no delivery of a
byte that is not asked for. -/
def KeepsSample (s : Synthesizer) : Operation → Prop
  | .write address data =>
    address ∉ ([0x4010, 0x4012, 0x4013] : List UInt16) ∧
      (address = 0x4015 → data &&& 0x10 ≠ 0 ∧ 0 < s.dmc.bytesRemaining)
  | .deliver _ => s.fetchAddress?.isSome
  | .reset => False
  | .clock | .sample | .setHeard _ _ | .setTapCapacity _ | .drain _ => True

/-- The operation delivers a byte. -/
def Operation.isDelivery : Operation → Bool
  | .deliver _ => true
  | _ => false

/-- The number of bytes delivered. -/
def fetches (ops : List Operation) : Nat :=
  ops.countP (·.isDelivery)

theorem fetches_append (ops ops' : List Operation) :
    fetches (ops ++ ops') = fetches ops + fetches ops' :=
  List.countP_append

variable {m : Sample} {k : Nat} {s s' : Synthesizer}

/-- A tick moves no fetch. -/
theorem hasFetched_clock (h : s.dmc.HasFetched m k) (clocked : s.clock = .ok s') :
    s'.dmc.HasFetched m k := by
  obtain ⟨_, _, _, _, _, _, played⟩ :=
    DeltaModulation.exists_of_tick (clock_eq_ok_iff.mp clocked).dmc
  rw [played]
  exact ⟨h.sample_eq, h.enabled, h.remaining, h.address, h.irqFlag⟩

/-- Only deliveries count. -/
theorem hasFetched_apply (h : s.dmc.HasFetched m k) (sound : m.IsSound) {op : Operation}
    (keeps : s.KeepsSample op) (run : s.apply op = .ok s') :
    s'.dmc.HasFetched m (k + fetches [op]) := by
  cases op with
  | write address data =>
    obtain ⟨other, switching⟩ := keeps
    obtain rfl := Except.ok.inj run
    by_cases switch : address = 0x4015
    · subst switch
      obtain ⟨on, more⟩ := switching rfl
      have set : (s.write 0x4015 data).dmc = s.dmc.setEnabled true :=
        congrArg s.dmc.setEnabled (bne_iff_ne.mpr on)
      rw [set]
      exact h.setEnabled (UInt16.pos_iff_ne_zero.mp more)
    · obtain ⟨_, written⟩ := s.exists_dmc_write data other switch
      rw [written]
      exact ⟨h.sample_eq, h.enabled, h.remaining, h.address, h.irqFlag⟩
  | clock => exact hasFetched_clock h run
  | deliver byte =>
    obtain rfl := Except.ok.inj run
    -- A byte that is asked for is one that remains.
    have awaits : s.dmc.awaitsByte = true := s.dmc.isSome_fetchAddress?.symm.trans keeps
    simp only [DeltaModulation.awaitsByte, Bool.and_eq_true, decide_eq_true_iff] at awaits
    exact h.deliver sound (UInt16.pos_iff_ne_zero.mp awaits.2) byte
  | reset => exact keeps.elim
  | sample | setHeard _ _ | setTapCapacity _ | drain _ =>
    obtain rfl := Except.ok.inj run
    exact h

/-- So it is over a run. -/
theorem hasFetched_run (h : s.dmc.HasFetched m 0) (sound : m.IsSound) {ops : List Operation}
    (keeps : ∀ t op rest, Visits apply s ops t (op :: rest) → t.KeepsSample op)
    (run : ops.foldlM apply s = .ok s') : s'.dmc.HasFetched m (fetches ops) := by
  refine holds_of_run (R := fun t before => t.dmc.HasFetched m (fetches before)) h ?_ run
  intro t t' before rest op visit fetched applied
  rw [fetches_append]
  exact hasFetched_apply fetched sound (keeps t op rest visit) applied

/-- Ticks alone move no fetch. -/
theorem hasFetched_clocks (h : s.dmc.HasFetched m k) {n : Nat}
    (run : (List.replicate n Operation.clock).foldlM apply s = .ok s') :
    s'.dmc.HasFetched m k :=
  holds_of_replicate (P := fun s => s.dmc.HasFetched m k) hasFetched_clock h run

/-- While a sample is not over, the next byte is asked for after enough ticks. -/
theorem isSome_fetchAddress?_of_clocks (h : s.dmc.HasFetched m k) (sound : m.IsSound)
    (timed : s.dmc.IsTimed) (more : m.looping = true ∨ k < m.length.toNat) {n : Nat}
    (enough : 10272 ≤ n) (run : (List.replicate n Operation.clock).foldlM apply s = .ok s') :
    s'.fetchAddress?.isSome := by
  have empty := buffer_eq_none_of_clocks timed enough run
  exact ((hasFetched_clocks h run).isSome_fetchAddress?_iff sound).mpr ⟨empty, more⟩

/-- A number of times, a byte is delivered and the longest time is waited that it may take to be
played. -/
def rounds : Nat → List Operation
  | 0 => []
  | n + 1 => .deliver 0x55 :: (List.replicate 10272 .clock ++ rounds n)

theorem fetches_rounds (n : Nat) : fetches (rounds n) = n := by
  induction n with
  | zero => rfl
  | succ n ih =>
    have wait : fetches (List.replicate 10272 Operation.clock) = 0 := by
      rw [fetches, List.countP_replicate]
      rfl
    rw [rounds, fetches, List.countP_cons]
    change fetches (List.replicate 10272 Operation.clock ++ rounds n) + 1 = n + 1
    rw [fetches_append, wait, ih, Nat.zero_add]

/-- A unit that asks for a byte of its sample, and whose clock goes on. -/
structure AsksFor (s : Synthesizer) (m : Sample) (k : Nat) : Prop where
  hasFetched : s.dmc.HasFetched m k
  asks : s.fetchAddress?.isSome
  timed : s.dmc.IsTimed
  inRange : s.InRange
  stays : ¬ s.Overshoots

/-- A byte that is delivered is played in time, and then the next one is asked for. -/
theorem AsksFor.exists_round (h : s.AsksFor m k) (sound : m.IsSound)
    (more : m.looping = true ∨ k + 1 < m.length.toNat) (byte : UInt8) :
    ∃ s', (List.replicate 10272 Operation.clock).foldlM apply (s.deliver byte) = .ok s' ∧
      s'.AsksFor m (k + 1) := by
  have keeps : s.KeepsSample (.deliver byte) := h.asks
  have delivered : (s.deliver byte).dmc.HasFetched m (k + 1) :=
    hasFetched_apply h.hasFetched sound keeps rfl
  have timed : (s.deliver byte).dmc.IsTimed := h.timed.deliver byte
  have stays : ¬ (s.deliver byte).Overshoots := h.stays
  obtain ⟨s', run, inRange', stays'⟩ := (h.inRange.deliver byte).exists_clocks stays 10272
  exact ⟨s', run, {
    hasFetched := hasFetched_clocks delivered run
    asks := isSome_fetchAddress?_of_clocks delivered sound timed more (Nat.le_refl _) run
    timed := isTimed_of_clocks timed run
    inRange := inRange'
    stays := stays' }⟩

/-- So a sample can be fetched byte by byte up to its last one, and over and over again if it
loops. -/
theorem AsksFor.exists_rounds (h : s.AsksFor m k) (sound : m.IsSound) {n : Nat}
    (more : m.looping = true ∨ k + n < m.length.toNat) :
    ∃ s', (rounds n).foldlM apply s = .ok s' ∧ s'.AsksFor m (k + n) ∧
      ∀ t op rest, Visits apply s (rounds n) t (op :: rest) → t.KeepsSample op := by
  induction n generalizing s k with
  | zero => exact ⟨s, rfl, h, fun _ _ _ visit => nomatch (visits_nil.mp visit).2⟩
  | succ n ih =>
    obtain ⟨middle, waited, asks⟩ := h.exists_round sound (more.imp_right (by omega)) 0x55
    obtain ⟨s', run, asks', keeps⟩ := ih asks (more.imp_right (by omega))
    refine ⟨s', ?_, ?_, ?_⟩
    · exact foldlM_cons_eq_ok.mpr ⟨_, rfl, foldlM_append_eq_ok.mpr ⟨middle, waited, run⟩⟩
    · rwa [show k + (n + 1) = k + 1 + n by omega]
    · intro t op rest visit
      rcases visits_cons.mp visit with ⟨rfl, here⟩ | ⟨t', delivered, visit⟩
      · obtain ⟨rfl, -⟩ := List.cons.inj here
        exact h.asks
      · obtain rfl := Except.ok.inj delivered
        rcases visit.of_append with ⟨left, some_left, visit, here⟩ | ⟨middle', waited', visit⟩
        · -- Ticks leave every sample to its fetches.
          obtain ⟨op', left, rfl⟩ := List.exists_cons_of_ne_nil some_left
          obtain ⟨rfl, -⟩ := List.cons.inj here
          obtain rfl := visit.eq_of_replicate
          trivial
        · obtain rfl := Except.ok.inj (waited.symm.trans waited')
          exact keeps t op rest visit

/-- Switching the player on while it has nothing to fetch begins the sample that the registers
name. -/
theorem hasFetched_of_switchedOn {start : Synthesizer} (begun : start.IsStart)
    {past : List Operation} (reached : past.foldlM apply start = .ok s)
    (silent : s.dmc.bytesRemaining = 0) {data : UInt8} (on : data &&& 0x10 ≠ 0) :
    (s.write 0x4015 data).dmc.HasFetched (sampleOfHistory (sinceReset past)) 0 := by
  have named : s.dmc.sample = sampleOfHistory (sinceReset past) := sample_eq_of_run begun reached
  have set : (s.write 0x4015 data).dmc = s.dmc.setEnabled true :=
    congrArg s.dmc.setEnabled (bne_iff_ne.mpr on)
  have sound := isSound_sampleOfHistory (sinceReset past)
  rw [← named] at sound
  rw [set, ← named]
  exact .of_setEnabled sound silent

/-- **Fetches walk the sample.** Let a unit in any state have no bytes to fetch, and let its sample
player be switched on. Take any run from there that leaves the sample to its fetches, and let it
make `k` fetches. The byte that is asked for then is the one at place `k` of the sample, or at the
place where `k` bytes of it, over and over again, lead if it loops. A byte is asked for whenever the
buffer is empty and the sample is not over, which comes about in 10272 ticks at the latest, three
for each processor clock of eight longest bits. A sample that loops is never over and asks for no
interrupt. Any other is over after as many fetches as it has bytes, and it is exactly then that the
status register shows no sample any more, and an interrupt if the sample may ask for one. -/
theorem fetches_walk_sample {start s s' : Synthesizer} (begun : start.IsStart)
    {past ops : List Operation} (reached : past.foldlM apply start = .ok s)
    (silent : s.dmc.bytesRemaining = 0) {data : UInt8} (on : data &&& 0x10 ≠ 0)
    (keeps : ∀ t op rest, Visits apply (s.write 0x4015 data) ops t (op :: rest) →
      t.KeepsSample op)
    (run : ops.foldlM apply (s.write 0x4015 data) = .ok s') :
    let control := lastWritten 0x4010 (sinceReset past)
    let a := 0xC000 + 64 * (lastWritten 0x4012 (sinceReset past)).toNat
    let length := 16 * (lastWritten 0x4013 (sinceReset past)).toNat + 1
    let loops := control &&& 0x40 != 0
    let k := fetches ops
    let unfinished := loops = true ∨ k < length
    (∀ address, s'.fetchAddress? = some address →
      address.toNat = 0x8000 + (a - 0x8000 + if loops then k % length else k) % 0x8000) ∧
    (s'.fetchAddress?.isSome ↔ s'.dmc.buffer = none ∧ unfinished) ∧
    (unfinished → ∀ n, 10272 ≤ n → ∀ s'',
      (List.replicate n Operation.clock).foldlM apply s' = .ok s'' → s''.fetchAddress?.isSome) ∧
    (loops = false → k ≤ length) ∧
    (s'.status &&& 0x10 ≠ 0 ↔ unfinished) ∧
    (s'.irqPending = true ↔ loops = false ∧ control &&& 0x80 ≠ 0 ∧ k = length) := by
  intro control a length loops k unfinished
  have sound := isSound_sampleOfHistory (sinceReset past)
  have begins := hasFetched_of_switchedOn begun reached silent on
  have fetched := hasFetched_run begins sound keeps run
  -- All that is told can be read off the sample and the number of its fetches.
  have at_address := toNat_address_sampleOfHistory (sinceReset past)
  have of_length : (sampleOfHistory (sinceReset past)).length.toNat = length :=
    toNat_length_sampleOfHistory (sinceReset past)
  have some_left : (sampleOfHistory (sinceReset past)).looping = true ∨
      k < (sampleOfHistory (sinceReset past)).length.toNat ↔ unfinished := by
    rw [of_length]
    rfl
  refine ⟨?_, ?_, ?_, ?_, ?_, ?_⟩
  · intro address asked
    rw [fetched.toNat_of_fetchAddress?_eq asked, Sample.addressOf, Sample.position, of_length,
      at_address]
    rfl
  · rw [← some_left]
    exact fetched.isSome_fetchAddress?_iff sound
  · intro more n enough s'' ticked
    have whole : (past ++ .write 0x4015 data :: ops).foldlM apply start = .ok s' :=
      foldlM_append_eq_ok.mpr ⟨s, reached, foldlM_cons_eq_ok.mpr ⟨_, rfl, run⟩⟩
    have timed := isTimed_of_run begun whole
    exact isSome_fetchAddress?_of_clocks fetched sound timed (some_left.mpr more) enough ticked
  · intro once
    rw [← of_length]
    exact fetched.le_length once
  · rw [← some_left]
    exact s'.status_bits.2.2.2.2.1.trans (fetched.bytesRemaining_pos_iff sound)
  · have asks : (sampleOfHistory (sinceReset past)).irqEnabled = true ↔ control &&& 0x80 ≠ 0 :=
      bne_iff_ne
    rw [← asks, ← of_length]
    exact fetched.irqFlag_iff

/-- A sample of 81 bytes begins 64 bytes below the top of memory. After 64 fetches it goes on from
the middle of memory, and after the last one it is over and asks for an interrupt. -/
theorem fetches_of_wrapping_sample :
    let past := [.write 0x4010 0x8F, .write 0x4012 0xFF, .write 0x4013 0x05]
    ∃ start s t t', initial 1024 = .ok start ∧ past.foldlM apply start = .ok s ∧
      (rounds 64).foldlM apply (s.write 0x4015 0x10) = .ok t ∧ t.fetchAddress? = some 0x8000 ∧
      (rounds 80 ++ [Operation.deliver 0xAA]).foldlM apply (s.write 0x4015 0x10) = .ok t' ∧
      t'.status &&& 0x10 = 0 ∧ t'.irqPending = true := by
  intro past
  obtain ⟨start, made⟩ : ∃ start, initial 1024 = .ok start := ⟨_, rfl⟩
  have begun := isStart_of_initial made
  let s := ((start.write 0x4010 0x8F).write 0x4012 0xFF).write 0x4013 0x05
  have reached : past.foldlM apply start = .ok s := rfl
  have silent : s.dmc.bytesRemaining = 0 := by
    obtain ⟨switches, taps, rfl⟩ := begun.exists_eq
    rfl
  have on : (0x10 : UInt8) &&& 0x10 ≠ 0 := by decide
  have sound := isSound_sampleOfHistory (sinceReset past)
  have length : (sampleOfHistory (sinceReset past)).length.toNat = 81 := by decide
  have switched : (past ++ [Operation.write 0x4015 0x10]).foldlM apply start =
      .ok (s.write 0x4015 0x10) := rfl
  have aligned : (s.write 0x4015 0x10).IsAligned := begun.isAligned.of_eq rfl rfl
  have ticks : (s.write 0x4015 0x10).ticks = 0 := begun.ticks_eq
  have asks : (s.write 0x4015 0x10).AsksFor (sampleOfHistory (sinceReset past)) 0 := {
    hasFetched := hasFetched_of_switchedOn begun reached silent on
    asks := by
      obtain ⟨switches, taps, rfl⟩ := begun.exists_eq
      rfl
    timed := isTimed_of_run begun switched
    inRange := ((((InRange.of_isStart begun).write _ _).write _ _).write _ _).write _ _
    stays := aligned.not_overshoots (by rw [ticks]; decide) }
  -- The fetches on the way across the top of memory, and all but the last one of the sample.
  obtain ⟨t, ran, asks₆₄, keeps₆₄⟩ :=
    asks.exists_rounds (n := 64) sound (.inr (by rw [length]; decide))
  obtain ⟨u, ran₈₀, asks₈₀, keeps₈₀⟩ :=
    asks.exists_rounds (n := 80) sound (.inr (by rw [length]; decide))
  have run' : (rounds 80 ++ [Operation.deliver 0xAA]).foldlM apply (s.write 0x4015 0x10) =
      .ok (u.deliver 0xAA) := foldlM_append_eq_ok.mpr ⟨u, ran₈₀, rfl⟩
  have keeps' : ∀ w op rest,
      Visits apply (s.write 0x4015 0x10) (rounds 80 ++ [Operation.deliver 0xAA]) w (op :: rest) →
        w.KeepsSample op := by
    intro w op rest visit
    rcases visit.of_append with ⟨left, some_left, visit, here⟩ | ⟨u', ran', visit⟩
    · obtain ⟨op', left, rfl⟩ := List.exists_cons_of_ne_nil some_left
      obtain ⟨rfl, -⟩ := List.cons.inj here
      exact keeps₈₀ w op left visit
    · obtain rfl := Except.ok.inj (ran₈₀.symm.trans ran')
      rcases visits_cons.mp visit with ⟨rfl, here⟩ | ⟨_, -, visit⟩
      · obtain ⟨rfl, -⟩ := List.cons.inj here
        exact asks₈₀.asks
      · cases (visits_nil.mp visit).2
  obtain ⟨address, asked⟩ := Option.isSome_iff_exists.mp asks₆₄.asks
  obtain ⟨place, -⟩ := fetches_walk_sample begun reached silent on keeps₆₄ ran
  obtain ⟨-, -, -, -, status, irq⟩ := fetches_walk_sample begun reached silent on keeps' run'
  rw [fetches_rounds] at place
  rw [fetches_append, fetches_rounds] at status irq
  have wrapped : address = 0x8000 := UInt16.toNat_inj.mp ((place address asked).trans (by decide))
  have finished : (u.deliver 0xAA).status &&& 0x10 = 0 := not_not.mp (mt status.mp (by decide))
  exact ⟨start, s, t, _, made, reached, ran, wrapped ▸ asked, run', finished, irq.mpr (by decide)⟩

end Synthesizer

end Famicom.Audio
