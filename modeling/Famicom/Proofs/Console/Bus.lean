import Famicom.Console.Devices

/-!
# Accesses of the bus

A program of the processor is seen through the accesses that it makes when it is run: the devices
after it are those after its accesses, one by one. Each access reaches few of the devices.

## Main definitions

* `BusAccess` — an access as it was made
* `BusProgram.accesses` — the accesses of a program that is run
* `Devices.perform` — what an access does to the devices

## Main results

* `BusProgram.run_eq_foldl` — running a program is making its accesses
* `Devices.foldl_perform_invariant` — what every access of a run preserves holds after it
* `Devices.read_eq_readConsole`, `Devices.write_eq_writeConsole` — no cartridge takes an access
  below its own addresses
* `Devices.exists_read`, `Devices.exists_write` — the devices that an access reaches
-/

namespace Famicom

open Audio

/-- An access of the bus as it was made. -/
inductive BusAccess where
  | read (address : UInt16) (peek : Bool) (byte : UInt8)
  | write (address : UInt16) (data : UInt8)
  /-- A write that starts the copier of sprite pages, with the sprite address it starts from. -/
  | startCopy (page address : UInt8)
  deriving DecidableEq, Repr

/-- Where a write starts the copier of sprite pages. -/
def copierRegister : UInt16 :=
  0x4014

/-- The first address that a cartridge may take. -/
def cartridgeStart : UInt16 :=
  0x6000

/-! ### Addresses below the cartridge -/

namespace Board

/-- No board answers a read below the addresses of a cartridge. -/
theorem cpuRead_eq_none (b : Board) {address : UInt16} (below : address < cartridgeStart) :
    b.cpuRead address = none := by
  have half : ¬ 0x8000 ≤ address := by unfold cartridgeStart at below; grind
  have ram : ¬ 0x6000 ≤ address := by unfold cartridgeStart at below; grind
  have high : ¬ 0xC000 ≤ address := by unfold cartridgeStart at below; grind
  cases b <;>
    simp [cpuRead, Nrom.cpuRead, Mmc1.cpuRead, Uxrom.cpuRead, Cnrom.cpuRead, Mmc3.cpuRead,
      Mmc2.cpuRead, half, ram, high]

/-- No board notices a write below the addresses of a cartridge. -/
theorem cpuWrite_eq_none (b : Board) {address : UInt16} (data : UInt8) (step : UInt64)
    (below : address < cartridgeStart) : b.cpuWrite address data step = (none, b) := by
  have half : ¬ 0x8000 ≤ address := by unfold cartridgeStart at below; grind
  have ram : ¬ 0x6000 ≤ address := by unfold cartridgeStart at below; grind
  cases b <;>
    simp [cpuWrite, Nrom.cpuWrite, Mmc1.cpuWrite, Uxrom.cpuWrite, Cnrom.cpuWrite, Mmc3.cpuWrite,
      Mmc2.cpuWrite, half, ram]

end Board

variable {π δ : Type}

namespace Devices

theorem cartridgeRead_eq_none (d : Devices π δ) {address : UInt16}
    (below : address < cartridgeStart) : d.cartridgeRead address = none := by
  unfold cartridgeRead
  cases d.cartridge with
  | none => rfl
  | some c => simp [Cartridge.cpuRead, c.board.cpuRead_eq_none below]

theorem cartridgeWrite_eq_false [FileStore δ] (d : Devices π δ) {address : UInt16} (data : UInt8)
    (below : address < cartridgeStart) : d.cartridgeWrite address data = (false, d) := by
  obtain ⟨ram, picture, sound, cartridge, controllers, dma, stall, step, log, store⟩ := d
  cases cartridge with
  | none => rfl
  | some c => simp [cartridgeWrite, Cartridge.cpuWrite, c.board.cpuWrite_eq_none data step below]

variable [PictureUnit π]

theorem read_eq_readConsole (d : Devices π δ) {address : UInt16} (peek : Bool)
    (below : address < cartridgeStart) : d.read address peek = d.readConsole address peek := by
  rw [read, d.cartridgeRead_eq_none below]

theorem write_eq_writeConsole [FileStore δ] (d : Devices π δ) {address : UInt16} (data : UInt8)
    (below : address < cartridgeStart) : d.write address data = d.writeConsole address data := by
  rw [write, d.cartridgeWrite_eq_false data below]

/-- The sprite address is a register of the picture unit. -/
theorem read_spriteAddress (d : Devices π δ) (peek : Bool) :
    d.read 0x2003 peek = d.readPicture 3 peek :=
  d.read_eq_readConsole peek (by decide)

/-- So is the sprite memory. -/
theorem write_spriteMemory [FileStore δ] (d : Devices π δ) (data : UInt8) :
    d.write 0x2004 data = d.writePicture 4 data :=
  d.write_eq_writeConsole data (by decide)

theorem write_copierRegister [FileStore δ] (d : Devices π δ) (page : UInt8) :
    d.write copierRegister page = d.startSpriteDma page :=
  d.write_eq_writeConsole page (by decide)

/-! ### What an access reaches -/

theorem exists_readPicture (d : Devices π δ) (register : UInt16) (peek : Bool) :
    ∃ picture cartridge, (d.readPicture register peek).2 = { d with picture, cartridge } := by
  unfold readPicture
  split
  · exact ⟨_, _, rfl⟩
  · exact ⟨_, _, rfl⟩

theorem exists_writePicture (d : Devices π δ) (register : UInt16) (data : UInt8) :
    ∃ picture cartridge, d.writePicture register data = { d with picture, cartridge } := by
  unfold writePicture
  split
  · exact ⟨_, _, rfl⟩
  · exact ⟨_, _, rfl⟩

/-- A read reaches the picture unit, the cartridge and the controllers at most. -/
theorem exists_read (d : Devices π δ) (address : UInt16) (peek : Bool) :
    ∃ picture cartridge controllers,
      (d.read address peek).2 = { d with picture, cartridge, controllers } := by
  unfold read
  split
  · exact ⟨_, _, _, rfl⟩
  · unfold readConsole
    split
    · exact ⟨_, _, _, rfl⟩
    · split
      · obtain ⟨picture, cartridge, reads⟩ := d.exists_readPicture (address &&& 0x0007) peek
        exact ⟨picture, cartridge, _, reads⟩
      · split <;> exact ⟨_, _, _, rfl⟩

@[simp] theorem sound_read (d : Devices π δ) (address : UInt16) (peek : Bool) :
    (d.read address peek).2.sound = d.sound := by
  obtain ⟨_, _, _, reads⟩ := d.exists_read address peek
  rw [reads]

@[simp] theorem dma_read (d : Devices π δ) (address : UInt16) (peek : Bool) :
    (d.read address peek).2.dma = d.dma := by
  obtain ⟨_, _, _, reads⟩ := d.exists_read address peek
  rw [reads]

variable [FileStore δ]

omit [PictureUnit π] in
theorem exists_cartridgeWrite (d : Devices π δ) (address : UInt16) (data : UInt8) :
    ∃ cartridge store, (d.cartridgeWrite address data).2 = { d with cartridge, store } := by
  obtain ⟨ram, picture, sound, cartridge, controllers, dma, stall, step, log, store⟩ := d
  cases cartridge with
  | none => exact ⟨_, _, rfl⟩
  | some c => exact ⟨_, _, rfl⟩

/-- A write that the cartridge may take reaches nothing but the cartridge. -/
theorem exists_write_of_le (d : Devices π δ) {address : UInt16} (data : UInt8)
    (above : cartridgeStart ≤ address) :
    ∃ cartridge store, d.write address data = { d with cartridge, store } := by
  obtain ⟨cartridge, store, written⟩ := d.exists_cartridgeWrite address data
  refine ⟨cartridge, store, ?_⟩
  unfold write
  split
  · rename_i found
    rw [← written, found]
  · -- The console has nothing at these addresses, so what no board takes is lost.
    rename_i d' found
    have low : ¬ address < 0x2000 := by unfold cartridgeStart at above; grind
    have middle : ¬ address < 0x4000 := by unfold cartridgeStart at above; grind
    have copier : address ≠ 0x4014 := by unfold cartridgeStart at above; grind
    have strobe : address ≠ 0x4016 := by unfold cartridgeStart at above; grind
    have high : ¬ address ≤ 0x4017 := by unfold cartridgeStart at above; grind
    rw [writeConsole, if_neg low, if_neg middle, if_neg copier, if_neg strobe, if_neg high,
      ← written, found]

/-- A register of the sound unit is at one of its addresses. -/
theorem ofAddress?_eq_some_bounds {address : UInt16} {register : Register}
    (h : Register.ofAddress? address = some register) :
    0x4000 ≤ address ∧ address ≤ 0x4015 ∧ address ≠ copierRegister := by
  unfold Register.ofAddress? at h
  split at h <;> first | decide | cases h

theorem write_of_ofAddress?_eq_none {s : Synthesizer} {address : UInt16} (data : UInt8)
    (h : Register.ofAddress? address = none) : s.write address data = s := by
  rw [Synthesizer.write, h]

/-- The sound unit sees every write, and heeds those to its registers. -/
theorem sound_write (d : Devices π δ) (address : UInt16) (data : UInt8) :
    (d.write address data).sound = d.sound.write address data := by
  cases found : Register.ofAddress? address with
  | some register =>
    -- Its registers are below the cartridge, so no board can take the write away.
    obtain ⟨first, last, other⟩ := ofAddress?_eq_some_bounds found
    have copier : address ≠ 0x4014 := other
    have below : address < cartridgeStart := by unfold cartridgeStart; grind
    have low : ¬ address < 0x2000 := by grind
    have middle : ¬ address < 0x4000 := by grind
    have strobe : address ≠ 0x4016 := by grind
    have high : address ≤ 0x4017 := by grind
    rw [d.write_eq_writeConsole data below, writeConsole, if_neg low, if_neg middle, if_neg copier,
      if_neg strobe, if_pos high]
  | none =>
    -- The unit would ignore the write, and no other device reaches it.
    rw [write_of_ofAddress?_eq_none data found]
    by_cases below : address < cartridgeStart
    · rw [d.write_eq_writeConsole data below]
      unfold writeConsole startSpriteDma
      split
      · rfl
      · split
        · obtain ⟨_, _, writes⟩ := d.exists_writePicture (address &&& 0x0007) data
          rw [writes]
        · split
          · exact d.sound_read 0x2003 false
          · split
            · rfl
            · split
              · exact write_of_ofAddress?_eq_none data found
              · rfl
    · obtain ⟨_, _, writes⟩ := d.exists_write_of_le data (UInt16.not_lt.mp below)
      rw [writes]

/-- Only its own register starts the copier. -/
theorem dma_write_of_ne (d : Devices π δ) {address : UInt16} (data : UInt8)
    (other : address ≠ copierRegister) : (d.write address data).dma = d.dma := by
  by_cases below : address < cartridgeStart
  · rw [d.write_eq_writeConsole data below]
    unfold writeConsole
    split
    · rfl
    · split
      · obtain ⟨_, _, writes⟩ := d.exists_writePicture (address &&& 0x0007) data
        rw [writes]
      · have copier : address ≠ 0x4014 := other
        rw [if_neg copier]
        split
        · rfl
        · split <;> rfl
  · obtain ⟨_, _, writes⟩ := d.exists_write_of_le data (UInt16.not_lt.mp below)
    rw [writes]

theorem dma_write_copierRegister (d : Devices π δ) (page : UInt8) :
    (d.write copierRegister page).dma = .aligning page (d.read 0x2003 false).1 := by
  rw [write_copierRegister]
  rfl

/-! ### Programs -/

/-- A write as an access. -/
def writeAccess (d : Devices π δ) (address : UInt16) (data : UInt8) : BusAccess :=
  if address = copierRegister then .startCopy data (d.read 0x2003 false).1
  else .write address data

/-- The devices after an access. -/
def perform (d : Devices π δ) : BusAccess → Devices π δ
  | .read address peek _ => (d.read address peek).2
  | .write address data => d.write address data
  | .startCopy page _ => d.write copierRegister page

theorem perform_writeAccess (d : Devices π δ) (address : UInt16) (data : UInt8) :
    d.perform (d.writeAccess address data) = d.write address data := by
  unfold writeAccess
  split
  · rename_i same
    rw [same]
    rfl
  · rfl

/-- What every access of a list preserves holds after them. -/
theorem foldl_perform_invariant {P : Devices π δ → Prop} {accesses : List BusAccess}
    (preserved : ∀ access ∈ accesses, ∀ d, P d → P (d.perform access)) {d : Devices π δ}
    (holds : P d) : P (accesses.foldl perform d) := by
  induction accesses generalizing d with
  | nil => exact holds
  | cons access accesses ih =>
    exact ih (fun a member => preserved a (List.mem_cons_of_mem access member))
      (preserved access List.mem_cons_self d holds)

end Devices

/-- The accesses that a program makes when it is run. -/
def BusProgram.accesses {α : Type} [PictureUnit π] [FileStore δ] :
    BusProgram α → Devices π δ → List BusAccess
  | .done _, _ => []
  | .read address peek next, d =>
    .read address peek (d.read address peek).1 ::
      (next (d.read address peek).1).accesses (d.read address peek).2
  | .write address data next, d =>
    d.writeAccess address data :: next.accesses (d.write address data)

/-- Running a program is making its accesses. -/
theorem BusProgram.run_eq_foldl {α : Type} [PictureUnit π] [FileStore δ] (program : BusProgram α)
    (d : Devices π δ) : (program.run d).2 = (program.accesses d).foldl Devices.perform d := by
  induction program generalizing d with
  | done a => rfl
  | read address peek next ih =>
    rw [run, accesses, List.foldl_cons]
    exact ih (d.read address peek).1 (d.read address peek).2
  | write address data next ih =>
    rw [run, accesses, List.foldl_cons, Devices.perform_writeAccess]
    exact ih (d.write address data)

end Famicom
