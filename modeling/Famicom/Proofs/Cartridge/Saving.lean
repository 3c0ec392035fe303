import Mathlib.Data.List.Basic
import Famicom.Proofs.Cartridge.OffsetRange

/-!
# Accesses to RAM, and its save

A processor access between $6000 and $7FFF reaches the RAM of a board that has any, always its first
8 KiB. Nothing else changes RAM, the reset line included.

What an operation does to a cartridge comes apart into a change of the cartridge, which knows
nothing of files, and a save after it. Only a write to RAM on a cartridge with a battery saves.

## Main definitions

* `Board.ramPlace?` — where in RAM an address leads
* `Board.Operation.onRam` — what an operation does to RAM
* `Cartridge.change` — what an operation does to a cartridge, its save apart

## Main results

* `Board.ram?_apply` — the RAM of a board after an operation
* `Cartridge.apply_eq` — an operation is a change, then perhaps a save
-/

namespace Famicom

/-! ### Boards -/

namespace Board

/-- The place in RAM that an access of the processor reaches on a board with RAM. -/
def ramPlace? (address : UInt16) : Option Nat :=
  if 0x6000 ≤ address ∧ address < 0x8000 then some (address.toNat - 0x6000) else none

/-- The window shows the first 8 KiB. -/
theorem ramPlace?_lt {address : UInt16} {place : Nat} (reached : ramPlace? address = some place) :
    place < 0x2000 := by
  unfold ramPlace? at reached
  split_ifs at reached with window
  have below : address.toNat < 0x8000 := window.2
  obtain rfl := Option.some.inj reached
  omega

/-- The place is found as boards find it, from the top of memory down. -/
theorem ramPlace?_eq (address : UInt16) :
    ramPlace? address =
      if 0x8000 ≤ address then none
      else if 0x6000 ≤ address then some (within address 0x2000)
      else none := by
  unfold ramPlace?
  by_cases upper : 0x8000 ≤ address
  · rw [if_pos upper, if_neg fun window => UInt16.not_lt.mpr upper window.2]
  · have below : address < 0x8000 := UInt16.not_le.mp upper
    have lower : address.toNat < 0x8000 := below
    rw [if_neg upper]
    by_cases from_window : 0x6000 ≤ address
    · have start : 0x6000 ≤ address.toNat := from_window
      have place : within address 0x2000 = address.toNat - 0x6000 := by
        unfold within
        omega
      rw [if_pos ⟨from_window, below⟩, if_pos from_window, place]
    · rw [if_neg fun window => from_window window.1, if_neg from_window]

/-! ### Registers leave RAM alone -/

@[simp] theorem Mmc1.ram_writeBit (b : Mmc1) (address : UInt16) (data : UInt8) (step : UInt64) :
    (b.writeBit address data step).ram = b.ram := by
  unfold Mmc1.writeBit
  split
  · rfl
  · split
    · rfl
    · cases b.serialGate <;> dsimp only <;> split <;> rfl

@[simp] theorem Mmc2.ram_writeRegister (b : Mmc2) (address : UInt16) (data : UInt8) :
    (b.writeRegister address data).ram = b.ram := by
  unfold Mmc2.writeRegister
  split_ifs <;> rfl

@[simp] theorem Mmc2.ram_fetch (b : Mmc2) (address : UInt16) : (b.fetch address).2.ram = b.ram := by
  unfold Mmc2.fetch
  split <;> rfl

@[simp] theorem Mmc3.ram_writeRegister (b : Mmc3) (address : UInt16) (data : UInt8) :
    (b.writeRegister address data).ram = b.ram := by
  unfold Mmc3.writeRegister
  dsimp only
  split_ifs <;> rfl

/-! ### Accesses of the processor -/

/-- A read between $6000 and $7FFF is answered by RAM, if there is any. -/
theorem cpuRead_of_ram? {b : Board} {ram : Block} (present : b.ram? = some ram) {address : UInt16}
    {place : Nat} (reached : ramPlace? address = some place) :
    b.cpuRead address = some (.ram (ram.read place)) := by
  rw [ramPlace?_eq] at reached
  cases b with
  | nrom _ | uxrom _ | cnrom _ => cases present
  | mmc1 b | mmc2 b | mmc3 b =>
    obtain rfl := Option.some.inj present
    simp only [cpuRead, Mmc1.cpuRead, Mmc2.cpuRead, Mmc3.cpuRead]
    split_ifs at reached ⊢ with upper from_window
    rw [Option.some.inj reached]

/-- A write is taken as one to RAM exactly if it goes there and there is any. -/
theorem cpuWrite_fst_eq_ram_iff {b : Board} {address : UInt16} {data : UInt8} {step : UInt64} :
    (b.cpuWrite address data step).1 = some .ram ↔
      (ramPlace? address).isSome = true ∧ b.ram?.isSome = true := by
  rw [ramPlace?_eq]
  cases b with
  | nrom b =>
    simp only [cpuWrite, Nrom.cpuWrite]
    split_ifs <;> simp [ram?]
  | uxrom _ | cnrom _ => simp [cpuWrite, ram?]
  | mmc1 b | mmc2 b | mmc3 b =>
    simp only [cpuWrite, Mmc1.cpuWrite, Mmc2.cpuWrite, Mmc3.cpuWrite]
    split_ifs <;> simp [ram?]

/-- A write that goes to RAM replaces one byte there, and any other leaves RAM alone. -/
theorem ram?_cpuWrite (b : Board) (address : UInt16) (data : UInt8) (step : UInt64) :
    (b.cpuWrite address data step).2.ram? =
      b.ram?.map fun ram => (ramPlace? address).elim ram fun place => ram.write place data := by
  rw [ramPlace?_eq]
  cases b with
  | nrom _ | uxrom _ | cnrom _ => rfl
  | mmc1 b | mmc2 b | mmc3 b =>
    simp only [cpuWrite, Mmc1.cpuWrite, Mmc2.cpuWrite, Mmc3.cpuWrite]
    split_ifs <;> simp [ram?]

/-- What an operation does to RAM. -/
def Operation.onRam (ram : Block) : Operation → Block
  | .cpuWrite address data _ => (ramPlace? address).elim ram fun place => ram.write place data
  | .loadRam image => ram.load image
  | _ => ram

/-- An operation does nothing else to the RAM of a board, and none brings RAM to a board or takes it
away. -/
theorem ram?_apply (b : Board) (op : Operation) : (b.apply op).ram? = b.ram?.map op.onRam := by
  have unchanged : b.ram? = b.ram?.map fun ram => ram := Option.map_id'.symm
  cases op with
  | cpuRead _ | chrWrite _ => exact unchanged
  | cpuWrite address data step => exact b.ram?_cpuWrite address data step
  | chrRead address =>
    -- A read of pattern memory flips a latch at most.
    obtain same | ⟨m, rfl, flipped⟩ := b.chrRead_snd address
    · exact (congrArg ram? same).trans unchanged
    · exact (congrArg ram? flipped).trans (congrArg some (m.ram_fetch address))
  | scanline | clearIrq | reset | setGate _ | loadRam _ => cases b <;> rfl

end Board

/-! ### Cartridges -/

namespace Cartridge

/-- The place in RAM that an operation writes to, and the byte that it puts there. -/
def Operation.ramWrite? : Operation → Option (Nat × UInt8)
  | .cpuWrite address data _ => (Board.ramPlace? address).map fun place => (place, data)
  | _ => none

theorem Operation.onRam_onBoard (op : Operation) (ram : Block) :
    op.onBoard.onRam ram = op.ramWrite?.elim ram fun write => ram.write write.1 write.2 := by
  cases op with
  | cpuWrite address data step =>
    simp only [onBoard, Board.Operation.onRam, ramWrite?]
    cases Board.ramPlace? address <;> rfl
  | _ => rfl

/-- Program memory after an operation. -/
def prgAfter (c : Cartridge) : Operation → Block
  | .cpuWrite address data step =>
    match (c.board.cpuWrite address data step).1 with
    | some (.prg offset) => c.prg.write offset data
    | _ => c.prg
  | _ => c.prg

/-- Pattern memory after an operation. -/
def chrAfter (c : Cartridge) : Operation → Block
  | .patternWrite address data =>
    (c.board.chrWrite address).elim c.chr fun offset => c.chr.write offset data
  | _ => c.chr

/-- What an operation does to a cartridge, its save apart. -/
def change (c : Cartridge) (op : Operation) : Cartridge :=
  { c with prg := c.prgAfter op, chr := c.chrAfter op, board := c.board.apply op.onBoard }

theorem persistence_change (c : Cartridge) (op : Operation) :
    (c.change op).persistence = c.persistence :=
  rfl

theorem ram?_change (c : Cartridge) (op : Operation) :
    (c.change op).board.ram? = c.board.ram?.map op.onBoard.onRam :=
  c.board.ram?_apply op.onBoard

/-- An operation is followed by a save, if there is RAM to be saved. -/
def saves (c : Cartridge) (op : Operation) : Bool :=
  op.ramWrite?.isSome && c.header.hasBattery

section Saving

variable {δ : Type} [FileStore δ]

/-- A save is one write of all RAM, and what comes of it is remembered. -/
theorem persist_of_file {c : Cartridge} {path : String} {ram : Block}
    (attached : c.persistence = .file path) (present : c.board.ram? = some ram) (store : δ) :
    c.persist store =
      ({ c with
          persistence := (FileStore.write store path ram.bytes).1.elim (.file path) fun reason =>
            .failed ⟨.write, path, reason⟩ },
        (FileStore.write store path ram.bytes).2) := by
  obtain ⟨header, container, prg, chr, board, persistence⟩ := c
  obtain rfl : persistence = .file path := attached
  obtain present : board.ram? = some ram := present
  unfold persist
  dsimp only
  rw [present]
  dsimp only
  rcases FileStore.write store path ram.bytes with ⟨_ | reason, after⟩ <;> rfl

/-- Without a file there is no save. -/
theorem persist_of_path?_eq_none {c : Cartridge} (detached : c.persistence.path? = none)
    (store : δ) : c.persist store = (c, store) := by
  unfold persist
  split
  · rename_i attached _
    rw [attached] at detached
    cases detached
  · rfl

theorem persist_of_ram?_eq_none {c : Cartridge} (absent : c.board.ram? = none) (store : δ) :
    c.persist store = (c, store) := by
  unfold persist
  rw [absent]
  split
  · contradiction
  · rfl

/-- A processor write is followed by a save if the board takes it as one to RAM. -/
theorem apply_cpuWrite (c : Cartridge) (address : UInt16) (data : UInt8) (step : UInt64)
    (store : δ) :
    apply (c, store) (.cpuWrite address data step) =
      if (c.board.cpuWrite address data step).1 = some .ram ∧ c.header.hasBattery = true then
        (c.change (.cpuWrite address data step)).persist store
      else (c.change (.cpuWrite address data step), store) := by
  obtain ⟨header, container, prg, chr, board, persistence⟩ := c
  unfold apply cpuWrite change prgAfter
  dsimp only [Operation.onBoard, Board.apply, chrAfter]
  rcases board.cpuWrite address data step with ⟨_ | ⟨offset⟩ | _, board'⟩
  · simp
  · simp
  · by_cases battery : header.hasBattery = true <;> simp [battery]

/-- An operation changes the cartridge, and a write to RAM with a battery then saves it. -/
theorem apply_eq (s : Cartridge × δ) (op : Operation) :
    apply s op =
      if s.1.saves op = true then (s.1.change op).persist s.2 else (s.1.change op, s.2) := by
  obtain ⟨c, store⟩ := s
  cases op with
  | cpuWrite address data step =>
    rw [apply_cpuWrite]
    cases present : c.board.ram? with
    | some ram =>
      simp [Board.cpuWrite_fst_eq_ram_iff, present, saves, Operation.ramWrite?]
    | none =>
      -- Without RAM there is nothing to save.
      have absent : (c.change (.cpuWrite address data step)).board.ram? = none := by
        rw [ram?_change, present, Option.map_none]
      rw [persist_of_ram?_eq_none absent, ite_self, ite_self]
  | patternWrite address data =>
    unfold apply patternWrite change chrAfter
    dsimp only
    cases c.board.chrWrite address <;> rfl
  | cpuRead _ | patternRead _ | scanline | clearIrq | reset | setGate _ => rfl

/-- What becomes of the save is all that a file system has a say in. -/
theorem exists_apply_eq_change (s : Cartridge × δ) (op : Operation) :
    ∃ persistence, (apply s op).1 = { s.1.change op with persistence } := by
  rw [apply_eq]
  split
  · exact (s.1.change op).exists_persist s.2
  · exact ⟨s.1.persistence, rfl⟩

@[simp] theorem header_apply (s : Cartridge × δ) (op : Operation) :
    (apply s op).1.header = s.1.header := by
  obtain ⟨persistence, changed⟩ := exists_apply_eq_change s op
  rw [changed]
  rfl

theorem ram?_apply (s : Cartridge × δ) (op : Operation) :
    (apply s op).1.board.ram? = s.1.board.ram?.map op.onBoard.onRam := by
  obtain ⟨persistence, changed⟩ := exists_apply_eq_change s op
  rw [changed]
  exact s.1.ram?_change op

/-- The only file that an operation can change is the one that RAM is saved to. -/
theorem apply_snd_cases (s : Cartridge × δ) (op : Operation) :
    (apply s op).2 = s.2 ∨
      ∃ path bytes, s.1.persistence = .file path ∧ s.1.saves op = true ∧
        s.1.board.ram?.isSome = true ∧ (apply s op).2 = (FileStore.write s.2 path bytes).2 := by
  rw [apply_eq]
  split
  · rename_i saving
    have known := s.1.persistence_change op
    cases held : s.1.persistence with
    | unused | failed _ =>
      have detached : (s.1.change op).persistence.path? = none := by
        rw [known, held]
        rfl
      exact .inl (by rw [persist_of_path?_eq_none detached])
    | file path =>
      rw [held] at known
      cases present : (s.1.change op).board.ram? with
      | none => exact .inl (by rw [persist_of_ram?_eq_none present])
      | some ram =>
        have has_ram : s.1.board.ram?.isSome = true := by
          rw [← Option.isSome_map, ← ram?_change, present, Option.isSome_some]
        exact .inr ⟨path, ram.bytes, rfl, saving, has_ram, by rw [persist_of_file known present]⟩
  · exact .inl rfl

/-- A cartridge keeps its save file or loses it, and gets no other. -/
theorem path?_apply (s : Cartridge × δ) (op : Operation) {path : String}
    (attached : (apply s op).1.persistence.path? = some path) :
    s.1.persistence.path? = some path := by
  rw [apply_eq] at attached
  split at attached
  · unfold persist at attached
    split at attached
    · rename_i file ram known present
      split at attached
      · exact attached
      · cases attached
    · exact attached
  · exact attached

end Saving

end Cartridge

end Famicom
