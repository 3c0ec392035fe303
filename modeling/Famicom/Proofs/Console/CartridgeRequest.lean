import Famicom.Bench.RegisterPicture
import Famicom.Proofs.Cartridge.Run
import Famicom.Proofs.Console.Run

/-!
# Requests of the cartridge

A cartridge asks for an interrupt in a scanline. Nothing else that can be done to it makes it ask,
neither accesses of the processor nor those of the picture unit. As long as the picture unit tells
of scanlines in its dots alone, the console looks for a request once a tick, withdraws it, and has
it handled. No handler can raise it again, so none is left.

## Main definitions

* `PictureUnit.ScansWhenClocked` — a picture unit tells of scanlines in its dots alone
* `Devices.cartridgeIrq` — the cartridge asks for an interrupt

## Main results

* `Board.irqPending_of_apply` — only a scanline raises a request
* `Devices.cartridgeIrq_of_perform` — no access of the bus does
* `Machine.cartridgeIrq_pollCartridgeIrq` — no request is left after its poll
-/

namespace Famicom

namespace Board

/-- Only a scanline raises a request. -/
theorem irqPending_of_apply {b : Board} (op : Operation) (other : op ≠ .scanline)
    (pending : (b.apply op).irqPending = true) : b.irqPending = true := by
  cases b with
  | mmc3 b =>
    cases op with
    | cpuWrite address data step =>
      simp only [apply, cpuWrite, Mmc3.cpuWrite, Mmc3.writeRegister, irqPending] at pending ⊢
      split_ifs at pending <;> exact pending
    | chrRead address =>
      rw [apply, chrRead] at pending
      split at pending <;> exact pending
    | scanline => exact absurd rfl other
    | clearIrq | reset => cases pending
    | cpuRead _ | chrWrite _ | setGate _ | loadRam _ => exact pending
  | nrom _ | mmc1 _ | uxrom _ | cnrom _ | mmc2 _ =>
    cases op with
    | chrRead address =>
      rw [apply, chrRead] at pending
      split at pending <;> exact pending
    | cpuRead _ | cpuWrite _ _ _ | chrWrite _ | scanline | clearIrq | reset | setGate _
    | loadRam _ => exact pending

theorem irqPending_clearIrq (b : Board) : b.clearIrq.irqPending = false := by
  cases b <;> rfl

end Board

namespace Cartridge

variable {c : Cartridge}

theorem irqPending_of_patternRead {address : UInt16}
    (pending : (c.patternRead address).2.irqPending = true) : c.irqPending = true :=
  Board.irqPending_of_apply (.chrRead address) nofun pending

theorem irqPending_of_patternWrite {address : UInt16} {data : UInt8}
    (pending : (c.patternWrite address data).2.irqPending = true) : c.irqPending = true := by
  unfold patternWrite at pending
  split at pending <;> exact pending

theorem irqPending_of_cpuWrite {δ : Type} [FileStore δ] {address : UInt16} {data : UInt8}
    {step : UInt64} {store : δ}
    (pending : (c.cpuWrite address data step store).2.1.irqPending = true) :
    c.irqPending = true := by
  obtain ⟨prg, persistence, written, -⟩ := c.exists_cpuWrite address data step store
  rw [written] at pending
  exact Board.irqPending_of_apply (.cpuWrite address data step) nofun pending

end Cartridge

namespace PatternProgram

/-- A program tells of no scanline. -/
def IsScanless {α : Type} : PatternProgram α → Prop
  | .done _ => True
  | .read _ next => ∀ byte, (next byte).IsScanless
  | .write _ _ next => ∀ taken, (next taken).IsScanless
  | .nametables next => ∀ layout, (next layout).IsScanless
  | .scanline _ => False

/-- Such a program raises no request. -/
theorem IsScanless.irqPending_of_run {α : Type} {program : PatternProgram α}
    (scanless : program.IsScanless) {c : Cartridge}
    (pending : (program.run c).2.irqPending = true) : c.irqPending = true := by
  induction program generalizing c with
  | done a => exact pending
  | read address next ih =>
    exact Cartridge.irqPending_of_patternRead (ih _ (scanless _) pending)
  | write address data next ih =>
    exact Cartridge.irqPending_of_patternWrite (ih _ (scanless _) pending)
  | nametables next ih => exact ih _ (scanless _) pending
  | scanline next ih => exact absurd scanless id

end PatternProgram

/-- A picture unit tells the cartridge of scanlines in its dots, and not when its registers are
read or written. -/
structure PictureUnit.ScansWhenClocked (π : Type) [PictureUnit π] : Prop where
  readRegister : ∀ (p : π) register peek, (PictureUnit.readRegister p register peek).IsScanless
  writeRegister : ∀ (p : π) register data, (PictureUnit.writeRegister p register data).IsScanless

theorem Bench.RegisterPicture.scansWhenClocked :
    PictureUnit.ScansWhenClocked Bench.RegisterPicture where
  readRegister _ _ _ := trivial
  writeRegister _ _ _ := trivial

variable {κ π δ : Type} [PictureUnit π]

namespace Devices

variable {d : Devices π δ}

/-- The cartridge asks for an interrupt. -/
def cartridgeIrq (d : Devices π δ) : Bool :=
  d.cartridge.any (·.irqPending)

theorem cartridgeIrq_of_readPicture (scans : PictureUnit.ScansWhenClocked π) {register : UInt16}
    {peek : Bool} (pending : (d.readPicture register peek).2.cartridgeIrq = true) :
    d.cartridgeIrq = true := by
  obtain ⟨_, picture, _, cartridge, _, _, _, _, _, _⟩ := d
  cases cartridge with
  | none => exact pending
  | some c => exact (scans.readRegister picture register peek).irqPending_of_run (c := c) pending

theorem cartridgeIrq_of_writePicture (scans : PictureUnit.ScansWhenClocked π) {register : UInt16}
    {data : UInt8} (pending : (d.writePicture register data).cartridgeIrq = true) :
    d.cartridgeIrq = true := by
  obtain ⟨_, picture, _, cartridge, _, _, _, _, _, _⟩ := d
  cases cartridge with
  | none => exact pending
  | some c => exact (scans.writeRegister picture register data).irqPending_of_run (c := c) pending

theorem cartridgeIrq_of_read (scans : PictureUnit.ScansWhenClocked π) (address : UInt16)
    (peek : Bool) (pending : (d.read address peek).2.cartridgeIrq = true) :
    d.cartridgeIrq = true := by
  unfold read at pending
  split at pending
  · exact pending
  · unfold readConsole at pending
    split at pending
    · exact pending
    · split at pending
      · exact cartridgeIrq_of_readPicture scans pending
      · split at pending <;> exact pending

theorem cartridgeIrq_of_writeConsole (scans : PictureUnit.ScansWhenClocked π) {address : UInt16}
    {data : UInt8} (pending : (d.writeConsole address data).cartridgeIrq = true) :
    d.cartridgeIrq = true := by
  unfold writeConsole at pending
  split at pending
  · exact pending
  · split at pending
    · exact cartridgeIrq_of_writePicture scans pending
    · split at pending
      · exact cartridgeIrq_of_read scans 0x2003 false pending
      · split at pending
        · exact pending
        · split at pending <;> exact pending

variable [FileStore δ]

theorem cartridgeIrq_of_write (scans : PictureUnit.ScansWhenClocked π) {address : UInt16}
    {data : UInt8} (pending : (d.write address data).cartridgeIrq = true) :
    d.cartridgeIrq = true := by
  -- The cartridge sees the write first, and perhaps the picture unit after it.
  have offered (pending : (d.cartridgeWrite address data).2.cartridgeIrq = true) :
      d.cartridgeIrq = true := by
    obtain ⟨_, _, _, cartridge, _, _, _, _, _, _⟩ := d
    cases cartridge with
    | none => exact pending
    | some c => exact Cartridge.irqPending_of_cpuWrite (c := c) pending
  unfold write at pending
  split at pending
  · rename_i found
    rw [found] at offered
    exact offered pending
  · rename_i found
    rw [found] at offered
    exact offered (cartridgeIrq_of_writeConsole scans pending)

/-- No access raises the request of the cartridge. -/
theorem cartridgeIrq_of_perform (scans : PictureUnit.ScansWhenClocked π) (access : BusAccess)
    (pending : (d.perform access).cartridgeIrq = true) : d.cartridgeIrq = true := by
  cases access with
  | read address peek byte => exact cartridgeIrq_of_read scans address peek pending
  | write address data => exact cartridgeIrq_of_write scans pending
  | startCopy page address => exact cartridgeIrq_of_write scans pending

theorem cartridgeIrq_of_foldl_perform (scans : PictureUnit.ScansWhenClocked π)
    (accesses : List BusAccess) :
    (accesses.foldl perform d).cartridgeIrq = true → d.cartridgeIrq = true := by
  refine foldl_perform_invariant
    (P := fun d' => d'.cartridgeIrq = true → d.cartridgeIrq = true) ?_ id
  intro access _ d' before pending
  exact before (cartridgeIrq_of_perform scans access pending)

end Devices

namespace Machine

variable [FileStore δ] {m : Machine κ π δ}

theorem cartridgeIrq_of_runProcessor (scans : PictureUnit.ScansWhenClocked π)
    {program : BusProgram κ}
    (pending : (m.runProcessor program).devices.cartridgeIrq = true) :
    m.devices.cartridgeIrq = true := by
  rw [devices_runProcessor] at pending
  exact Devices.cartridgeIrq_of_foldl_perform scans _ pending

omit [PictureUnit π] [FileStore δ] in
theorem cartridgeIrq_sampleAudio (m : Machine κ π δ) :
    m.sampleAudio.2.devices.cartridgeIrq = m.devices.cartridgeIrq := by
  obtain ⟨_, _, _, took⟩ := m.exists_sampleAudio
  rw [took]
  rfl

variable [Processor κ]

theorem cartridgeIrq_of_slot (scans : PictureUnit.ScansWhenClocked π)
    (pending : m.slot.devices.cartridgeIrq = true) : m.devices.cartridgeIrq = true := by
  unfold slot at pending
  split at pending
  · refine useSlot_invariant
      (P := fun d => d.cartridgeIrq = true → m.devices.cartridgeIrq = true) ?_ ?_ ?_ id pending
    · intro access _ d before again
      exact before (Devices.cartridgeIrq_of_perform scans access again)
    · intro d byte before
      exact before
    · intro d dma stall step log before
      exact before
  · exact pending

theorem cartridgeIrq_of_pollNmi (scans : PictureUnit.ScansWhenClocked π)
    (pending : m.pollNmi.devices.cartridgeIrq = true) : m.devices.cartridgeIrq = true := by
  unfold pollNmi at pending
  dsimp only at pending
  split at pending
  · have before := cartridgeIrq_of_runProcessor scans pending
    exact before
  · exact pending

theorem cartridgeIrq_of_pollSoundIrq (scans : PictureUnit.ScansWhenClocked π)
    (pending : m.pollSoundIrq.devices.cartridgeIrq = true) : m.devices.cartridgeIrq = true := by
  unfold pollSoundIrq at pending
  split at pending
  · exact cartridgeIrq_of_runProcessor scans pending
  · exact pending

/-- The console with the request of the cartridge withdrawn. -/
def clearCartridgeIrq (m : Machine κ π δ) : Machine κ π δ :=
  m.mapDevices fun d => { d with cartridge := d.cartridge.map (·.clearIrq) }

omit [PictureUnit π] [FileStore δ] [Processor κ] in
theorem cartridgeIrq_clearCartridgeIrq (m : Machine κ π δ) :
    m.clearCartridgeIrq.devices.cartridgeIrq = false := by
  change (m.devices.cartridge.map (·.clearIrq)).any (·.irqPending) = false
  cases m.devices.cartridge with
  | none => rfl
  | some c => exact c.board.irqPending_clearIrq

/-- The request is withdrawn before it is handled. -/
theorem pollCartridgeIrq_eq (m : Machine κ π δ) :
    m.pollCartridgeIrq =
      if m.devices.cartridgeIrq then
        m.clearCartridgeIrq.runProcessor (Processor.irq m.processor)
      else m := by
  obtain ⟨_, ⟨_, _, _, cartridge, _, _, _, _, _, _⟩, _, _, _, _⟩ := m
  cases cartridge <;> rfl

/-- So none is left after the poll. -/
theorem cartridgeIrq_pollCartridgeIrq (scans : PictureUnit.ScansWhenClocked π)
    (m : Machine κ π δ) : m.pollCartridgeIrq.devices.cartridgeIrq = false := by
  rw [pollCartridgeIrq_eq]
  cases pending : m.devices.cartridgeIrq with
  | false => exact pending
  | true =>
    refine Bool.eq_false_iff.mpr fun again => ?_
    have before := cartridgeIrq_of_runProcessor scans again
    rw [cartridgeIrq_clearCartridgeIrq] at before
    cases before

end Machine

end Famicom
