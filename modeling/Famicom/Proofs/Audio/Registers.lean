import Mathlib.Data.List.Basic
import Famicom.Proofs.Audio.Tick

/-!
# The registers of the sound unit

What the registers of the sound unit were last written since power-on or the last reset is told by
the history of the unit, whatever else it holds. A register that was not written counts as written
with zero, which is what power-on leaves in all of them.

## Main definitions

* `Register.address` — where a register is
* `Synthesizer.sinceReset` — a history since power-on or the last reset
* `Synthesizer.lastWritten` — the byte that a history leaves at an address

## Main results

* `Register.ofAddress?_eq_some_iff` — every register has one address
* `Synthesizer.holds_sinceReset` — a unit keeps what every operation keeps, of the history since
  power-on or the last reset
* `Synthesizer.eq_lastWritten_of_run` — what only one register sets is as it was last written
* `Synthesizer.dmc_write` — what a write is to the sample player
* `Synthesizer.dmc_holds_of_run` — a sample player keeps what each of its steps keeps
* `Synthesizer.status_bits` — what the bits of the status register tell
-/

namespace Famicom.Audio

/-- The address of a register. -/
def Register.address : Register → UInt16
  | .pulse1 .control => 0x4000
  | .pulse1 .sweep => 0x4001
  | .pulse1 .timerLow => 0x4002
  | .pulse1 .timerHigh => 0x4003
  | .pulse2 .control => 0x4004
  | .pulse2 .sweep => 0x4005
  | .pulse2 .timerLow => 0x4006
  | .pulse2 .timerHigh => 0x4007
  | .triangle .linear => 0x4008
  | .triangle .timerLow => 0x400A
  | .triangle .timerHigh => 0x400B
  | .noise .control => 0x400C
  | .noise .period => 0x400E
  | .noise .length => 0x400F
  | .dmc .control => 0x4010
  | .dmc .level => 0x4011
  | .dmc .address => 0x4012
  | .dmc .length => 0x4013
  | .status => 0x4015

/-- Every register has one address, and no address has two registers. -/
theorem Register.ofAddress?_eq_some_iff {address : UInt16} {register : Register} :
    ofAddress? address = some register ↔ address = register.address := by
  constructor
  · intro found
    unfold ofAddress? at found
    split at found <;> cases found <;> rfl
  · rintro rfl
    cases register with
    | pulse1 r | pulse2 r | triangle r | noise r | dmc r => cases r <;> rfl
    | status => rfl

namespace Synthesizer

/-! ### Histories -/

/-- The unit is reset. -/
def Operation.isReset : Operation → Bool
  | .reset => true
  | _ => false

/-- The byte that an operation writes to an address, if it does. -/
def Operation.writtenTo? (address : UInt16) : Operation → Option UInt8
  | .write there data => if there = address then some data else none
  | _ => none

/-- What was done since power-on or the last reset, the latest first. -/
def sinceReset (ops : List Operation) : List Operation :=
  ops.reverse.takeWhile fun op => !op.isReset

/-- The byte that was last written to an address, or zero if none was. The history is listed latest
first. -/
def lastWritten (address : UInt16) (recent : List Operation) : UInt8 :=
  (recent.findSome? fun op => op.writtenTo? address).getD 0

theorem sinceReset_concat (ops : List Operation) (op : Operation) :
    sinceReset (ops ++ [op]) = if op.isReset then [] else op :: sinceReset ops := by
  cases reset : op.isReset <;> simp [sinceReset, reset]

theorem lastWritten_cons (address : UInt16) (op : Operation) (recent : List Operation) :
    lastWritten address (op :: recent) =
      (op.writtenTo? address).getD (lastWritten address recent) := by
  unfold lastWritten
  rw [List.findSome?_cons]
  cases op.writtenTo? address <;> rfl

@[simp] theorem lastWritten_write_self (address : UInt16) (data : UInt8)
    (recent : List Operation) : lastWritten address (.write address data :: recent) = data := by
  simp [lastWritten_cons, Operation.writtenTo?]

theorem lastWritten_write_of_ne {address there : UInt16} (other : there ≠ address) (data : UInt8)
    (recent : List Operation) :
    lastWritten address (.write there data :: recent) = lastWritten address recent := by
  simp [lastWritten_cons, Operation.writtenTo?, other]

/-- A relation between units and what was done to them since power-on or the last reset holds after
every run, if it holds at power-on and every operation keeps it. -/
theorem holds_sinceReset {R : Synthesizer → List Operation → Prop}
    (initial : ∀ {s : Synthesizer}, s.IsStart → R s [])
    (step : ∀ {s s' : Synthesizer} {recent : List Operation} {op : Operation}, R s recent →
      op ≠ .reset → s.apply op = .ok s' → R s' (op :: recent))
    {start s : Synthesizer} (begun : start.IsStart) {ops : List Operation}
    (run : ops.foldlM apply start = .ok s) : R s (sinceReset ops) := by
  refine holds_of_run (R := fun s ops => R s (sinceReset ops)) (initial begun) ?_ run
  intro s s' before rest op _ held applied
  rw [sinceReset_concat]
  -- A reset leads to a start, which has no history.
  cases op with
  | reset => exact initial (isStart_of_reset applied)
  | write _ _ | clock | sample | deliver _ | setHeard _ _ | setTapCapacity _ | drain _ =>
    exact step held nofun applied

/-- What a write to one register sets, and nothing else but a reset changes, is as the register was
last written. -/
theorem eq_lastWritten_of_run {α : Type} (address : UInt16) (view : Synthesizer → α)
    (set : UInt8 → α) (initial : ∀ {s : Synthesizer}, s.IsStart → view s = set 0)
    (sets : ∀ (s : Synthesizer) (data : UInt8), view (s.write address data) = set data)
    (spares : ∀ {s s' : Synthesizer} {op : Operation}, op.writtenTo? address = none →
      op ≠ .reset → s.apply op = .ok s' → view s' = view s)
    {start s : Synthesizer} (begun : start.IsStart) {ops : List Operation}
    (run : ops.foldlM apply start = .ok s) :
    view s = set (lastWritten address (sinceReset ops)) := by
  refine holds_sinceReset (R := fun s recent => view s = set (lastWritten address recent))
    initial ?_ begun run
  intro s s' recent op settings running applied
  by_cases written : op.writtenTo? address = none
  · rw [lastWritten_cons, written, spares written running applied]
    exact settings
  · -- Only a write to the register itself is left.
    cases op with
    | write there data =>
      obtain rfl : there = address := by simpa [Operation.writtenTo?] using written
      obtain rfl := Except.ok.inj applied
      rw [lastWritten_write_self]
      exact sets s data
    | clock | sample | reset | deliver _ | setHeard _ _ | setTapCapacity _ | drain _ =>
      exact absurd rfl written

/-! ### Single voices -/

/-- A write reaches the sample player by one of its registers, or by the switches of the voices. -/
theorem dmc_write (s : Synthesizer) (address : UInt16) (data : UInt8) :
    (s.write address data).dmc =
      match Register.ofAddress? address with
      | some (.dmc r) => s.dmc.write r data
      | some .status => s.dmc.setEnabled (data &&& 0x10 != 0)
      | _ => s.dmc := by
  unfold write
  cases Register.ofAddress? address with
  | none => rfl
  | some register => cases register <;> rfl

/-- What holds of the sample player at power-on, and is kept by all that is done to it in a run,
holds at the end of the run. -/
theorem dmc_holds_of_run {P : DeltaModulation → Prop} {start s : Synthesizer}
    {ops : List Operation} (initial : P {})
    (written : ∀ {d : DeltaModulation} register data, P d → P (d.write register data))
    (switched : ∀ {d : DeltaModulation} enabled, P d → P (d.setEnabled enabled))
    (delivered : ∀ {t : Synthesizer} {byte : UInt8} {rest : List Operation},
      Visits apply start ops t (.deliver byte :: rest) → P t.dmc → P (t.dmc.deliver byte))
    (ticked : ∀ {d d' : DeltaModulation} {due : Bool}, P d → d.tick due = .ok d' → P d')
    (begun : start.IsStart) (run : ops.foldlM apply start = .ok s) : P s.dmc := by
  have power_on : ∀ {t : Synthesizer}, t.IsStart → P t.dmc := by
    intro t begun
    obtain ⟨switches, taps, rfl⟩ := begun.exists_eq
    exact initial
  refine holds_of_run (R := fun t _ => P t.dmc) (power_on begun) ?_ run
  intro t t' before rest op visit held applied
  cases op with
  | write address data =>
    obtain rfl := Except.ok.inj applied
    rw [dmc_write]
    split
    · exact written _ data held
    · exact switched _ held
    · exact held
  | clock => exact ticked held (clock_eq_ok_iff.mp applied).dmc
  | deliver byte =>
    obtain rfl := Except.ok.inj applied
    exact delivered visit held
  | reset => exact power_on (isStart_of_reset applied)
  | sample | setHeard _ _ | setTapCapacity _ | drain _ =>
    obtain rfl := Except.ok.inj applied
    exact held

/-- Each bit of the status register tells one thing. -/
theorem status_bits (s : Synthesizer) :
    (s.status &&& 0x01 ≠ 0 ↔ 0 < s.pulse1.length.counter) ∧
      (s.status &&& 0x02 ≠ 0 ↔ 0 < s.pulse2.length.counter) ∧
      (s.status &&& 0x04 ≠ 0 ↔ 0 < s.triangle.length.counter) ∧
      (s.status &&& 0x08 ≠ 0 ↔ 0 < s.noise.length.counter) ∧
      (s.status &&& 0x10 ≠ 0 ↔ 0 < s.dmc.bytesRemaining) ∧
      (s.status &&& 0x80 ≠ 0 ↔ s.dmc.irqFlag = true) := by
  -- The bits are apart, whichever of them are set.
  have joined : ∀ a b c d e f : Bool,
      let status := flag a 0x01 ||| flag b 0x02 ||| flag c 0x04 ||| flag d 0x08 ||| flag e 0x10 |||
        flag f 0x80
      (status &&& 0x01 ≠ 0 ↔ a = true) ∧ (status &&& 0x02 ≠ 0 ↔ b = true) ∧
        (status &&& 0x04 ≠ 0 ↔ c = true) ∧ (status &&& 0x08 ≠ 0 ↔ d = true) ∧
        (status &&& 0x10 ≠ 0 ↔ e = true) ∧ (status &&& 0x80 ≠ 0 ↔ f = true) := by
    decide
  have bits := joined (decide (0 < s.pulse1.length.counter))
    (decide (0 < s.pulse2.length.counter)) (decide (0 < s.triangle.length.counter))
    (decide (0 < s.noise.length.counter)) (decide (0 < s.dmc.bytesRemaining)) s.dmc.irqFlag
  simp only [decide_eq_true_iff] at bits
  exact bits

end Synthesizer

end Famicom.Audio
