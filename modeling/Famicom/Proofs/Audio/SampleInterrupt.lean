import Famicom.Proofs.Audio.Registers

/-!
# The interrupt of the sample player

A sample that ends may ask for an interrupt. The request stays, however often it is looked at, until
it is withdrawn: by any write to the switches of the voices, by a write that switches the interrupt
off, or by a reset. Bytes, ticks and all that a listener does leave it.

## Main definitions

* `Synthesizer.withdrawsIrq`, `Synthesizer.Operation.withdrawsIrq` — the writes and operations that
  withdraw a request

## Main results

* `Synthesizer.irqPending_write` — what a write leaves of a request
* `Synthesizer.irqPending_of_apply`, `Synthesizer.irqPending_of_run` — operations and runs that do
  not withdraw a request leave it
-/

namespace Famicom.Audio

namespace DeltaModulation

/-- The end of a sample may ask for an interrupt, and never withdraws one. -/
theorem irqFlag_finish {d : DeltaModulation} (pending : d.irqFlag = true) :
    d.finish.irqFlag = true := by
  unfold finish
  split
  · exact pending
  · split
    · rfl
    · exact pending

theorem irqFlag_deliver {d : DeltaModulation} (pending : d.irqFlag = true) (byte : UInt8) :
    (d.deliver byte).irqFlag = true := by
  unfold deliver
  generalize (if d.bytesRemaining = 0 then 0 else d.bytesRemaining - 1) = left
  dsimp only
  split
  · exact irqFlag_finish pending
  · exact pending

/-- Playing has nothing to do with the interrupt. -/
theorem irqFlag_of_tick {d d' : DeltaModulation} {due : Bool} (ticked : d.tick due = .ok d') :
    d'.irqFlag = d.irqFlag := by
  obtain ⟨_, _, _, _, _, _, rfl⟩ := exists_of_tick ticked
  rfl

end DeltaModulation

namespace Synthesizer

/-- The writes that withdraw a request: any to the switches, and one that switches the interrupt
off. -/
def withdrawsIrq (address : UInt16) (data : UInt8) : Bool :=
  address = 0x4015 || (address = 0x4010 && data &&& 0x80 == 0)

/-- A write withdraws a request or leaves it as it is. -/
theorem irqPending_write (s : Synthesizer) (address : UInt16) (data : UInt8) :
    (s.write address data).irqPending = (s.irqPending && !withdrawsIrq address data) := by
  have switches : Register.ofAddress? address = some .status ↔ address = 0x4015 :=
    Register.ofAddress?_eq_some_iff
  have control : Register.ofAddress? address = some (.dmc .control) ↔ address = 0x4010 :=
    Register.ofAddress?_eq_some_iff
  unfold withdrawsIrq
  simp only [← switches, ← control, write]
  cases Register.ofAddress? address with
  | none => simp
  | some register =>
    dsimp only
    cases register with
    | status =>
      have withdrawn : (s.setStatus data).irqPending = false := by
        obtain ⟨_, _, set⟩ := s.dmc.exists_setEnabled (data &&& 0x10 != 0)
        exact congrArg DeltaModulation.irqFlag set
      simpa [writeRegister] using withdrawn
    | dmc r =>
      cases r with
      | control =>
        have kept : (s.writeRegister (.dmc .control) data).irqPending =
            ((data &&& 0x80 != 0) && s.irqPending) := rfl
        rw [kept]
        simp [Bool.and_comm, bne]
      | level | address | length => simp [writeRegister, irqPending, DeltaModulation.write]
    | pulse1 _ | pulse2 _ | triangle _ | noise _ => simp [writeRegister, irqPending]

theorem irqPending_of_clock {s s' : Synthesizer} (clocked : s.clock = .ok s') :
    s'.irqPending = s.irqPending :=
  DeltaModulation.irqFlag_of_tick (clock_eq_ok_iff.mp clocked).dmc

theorem irqPending_of_reset {s s' : Synthesizer} (reset : s.reset = .ok s') :
    s'.irqPending = false := by
  obtain ⟨switches, taps, rfl⟩ := (isStart_of_reset reset).exists_eq
  rfl

/-- The operations that withdraw a request. -/
def Operation.withdrawsIrq : Operation → Bool
  | .write address data => Synthesizer.withdrawsIrq address data
  | .reset => true
  | _ => false

/-- Anything else leaves it. -/
theorem irqPending_of_apply {s s' : Synthesizer} {op : Operation} (applied : s.apply op = .ok s')
    (keeps : op.withdrawsIrq = false) (pending : s.irqPending = true) : s'.irqPending = true := by
  cases op with
  | write address data =>
    obtain rfl := Except.ok.inj applied
    have keeps : Synthesizer.withdrawsIrq address data = false := keeps
    rw [irqPending_write, pending, keeps]
    rfl
  | clock => exact (irqPending_of_clock applied).trans pending
  | deliver byte =>
    obtain rfl := Except.ok.inj applied
    exact DeltaModulation.irqFlag_deliver pending byte
  | reset => cases keeps
  | sample | setHeard _ _ | setTapCapacity _ | drain _ =>
    obtain rfl := Except.ok.inj applied
    exact pending

theorem irqPending_of_run {s s' : Synthesizer} {ops : List Operation}
    (ran : ops.foldlM apply s = .ok s') (keep : ∀ op ∈ ops, op.withdrawsIrq = false)
    (pending : s.irqPending = true) : s'.irqPending = true := by
  induction ops generalizing s with
  | nil =>
    obtain rfl := foldlM_nil_eq_ok.mp ran
    exact pending
  | cons op ops ih =>
    obtain ⟨middle, applied, rest⟩ := foldlM_cons_eq_ok.mp ran
    refine ih rest (fun op member => keep op (List.mem_cons_of_mem _ member)) ?_
    exact irqPending_of_apply applied (keep op List.mem_cons_self) pending

end Synthesizer

end Famicom.Audio
