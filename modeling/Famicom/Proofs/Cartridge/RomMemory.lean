import Mathlib.Data.List.Induction
import Famicom.Proofs.Cartridge.Opening
import Famicom.Proofs.Cartridge.PatternRam
import Famicom.Proofs.Cartridge.PowerOn

/-!
# Memory that runs leave alone

Whatever is done to a cartridge, its memory keeps its size. Pattern ROM keeps its bytes, and so does
program memory on every board but NROM, where other boards have registers.

An NROM board lets program memory be written. Reads and writes of the processor go through the same
mirror, of 16 KiB with one bank and of 32 KiB with more, so that a read finds the last byte that was
written to an address with the same image in the mirror, or else the byte that was loaded.

## Main definitions

* `Board.mirrorSize` — after how many bytes an NROM board shows its program memory again
* `Cartridge.lastMirrored?` — the last byte that operations wrote to an image of an address

## Main results

* `Board.cpuWrite_fst_eq_prg_iff` — which writes reach program memory
* `Cartridge.IsLoaded.chrBanks_eq` — a loaded cartridge has the pattern ROM that its header declares
* `Cartridge.rom_immutable` — memory after any run
-/

namespace Famicom

namespace Board

/-! ### The mirror of an NROM board -/

/-- After how many bytes an NROM board shows its program memory again. -/
def mirrorSize (banks : BankCounts) : Nat :=
  if banks.prg = 1 then 0x4000 else 0x8000

theorem fixedPrg_eq (banks : BankCounts) (address : UInt16) :
    fixedPrg banks address = address.toNat % mirrorSize banks := by
  have some_banks := banks.prg_pos
  unfold fixedPrg mirrorSize within
  by_cases single : banks.prg = 1
  · rw [if_neg (by omega), if_pos single]
  · rw [if_pos (by omega), if_neg single]

theorem mirrorSize_pos (banks : BankCounts) : 0 < mirrorSize banks := by
  unfold mirrorSize
  split <;> decide

/-- One image of the mirror lies in program memory. -/
theorem mirrorSize_le (banks : BankCounts) : mirrorSize banks ≤ 0x4000 * banks.prg := by
  have some_banks := banks.prg_pos
  unfold mirrorSize
  split <;> omega

/-- Only on an NROM board does a write reach program memory. -/
theorem cpuWrite_fst_eq_prg_iff {b : Board} {address : UInt16} {data : UInt8} {step : UInt64}
    {offset : Nat} :
    (b.cpuWrite address data step).1 = some (.prg offset) ↔
      b.number = 0 ∧ 0x8000 ≤ address ∧ offset = address.toNat % mirrorSize b.banks := by
  cases b with
  | nrom b =>
    rw [← fixedPrg_eq]
    simp only [cpuWrite, Nrom.cpuWrite, number, banks, true_and]
    split
    · rename_i upper
      simp [upper, eq_comm]
    · rename_i lower
      simp [lower]
  | uxrom _ | cnrom _ => simp [cpuWrite, number]
  | mmc1 b | mmc3 b | mmc2 b =>
    simp only [cpuWrite, Mmc1.cpuWrite, Mmc2.cpuWrite, Mmc3.cpuWrite, number]
    split_ifs <;> simp

/-- Reads go through the mirror that writes go through. -/
theorem cpuRead_of_number_eq_zero {b : Board} (nrom : b.number = 0) {address : UInt16}
    (upper : 0x8000 ≤ address) :
    b.cpuRead address = some (.prg (address.toNat % mirrorSize b.banks)) := by
  cases b with
  | nrom b =>
    rw [← fixedPrg_eq]
    exact if_pos upper
  | mmc1 _ | uxrom _ | cnrom _ | mmc3 _ | mmc2 _ => exact absurd nrom (by simp [number])

end Board

namespace Cartridge

/-! ### What a header declares -/

section Loaded

variable {δ : Type} [FileStore δ] {c : Cartridge}

/-- A loaded cartridge comes from an image, and perhaps with a save in the RAM of its board. -/
theorem IsLoaded.exists_image (loaded : IsLoaded δ c) :
    ∃ image blank saved, Cartridge.ofImage image = .ok blank ∧ c.detach = blank.withRam saved := by
  cases loaded with
  | @ofImage image _ loaded => exact ⟨image, c, .empty, loaded, c.withRam_empty.symm⟩
  | openFile opened =>
    obtain ⟨image, blank, there, loaded, -⟩ := openFile_eq_ok_iff.mp opened
    obtain ⟨saved, brought⟩ := exists_openFile opened there loaded
    exact ⟨image, blank, saved, loaded, brought⟩

/-- A loaded cartridge has the pattern ROM that its header declares. -/
theorem IsLoaded.chrBanks_eq (loaded : IsLoaded δ c) :
    c.chrBanks = (c.header.extent c.container).chrBanks := by
  obtain ⟨image, blank, saved, loaded, brought⟩ := loaded.exists_image
  obtain ⟨-, made⟩ := isMadeOf_of_ofImage loaded
  have header : c.header = blank.header := (congrArg Cartridge.header brought : c.detach.header = _)
  have container : c.container = blank.container :=
    (congrArg Cartridge.container brought : c.detach.container = _)
  have banks : c.board.banks = blank.board.banks :=
    (congrArg (·.board.banks) brought : c.detach.board.banks = _).trans
      (blank.board.banks_apply (.loadRam saved))
  rw [header, container, made.header, made.container, chrBanks, banks, made.chrBanks]
  rfl

end Loaded

/-! ### One operation -/

/-- The byte that an operation writes to an upper address with the same image as another in a mirror
of some size. -/
def Operation.mirrored? (size : Nat) (address : UInt16) : Operation → Option UInt8
  | .cpuWrite target data _ =>
    if 0x8000 ≤ target ∧ target.toNat % size = address.toNat % size then some data else none
  | _ => none

/-- The last byte that operations wrote to an upper address with the same image as another. -/
def lastMirrored? (size : Nat) (address : UInt16) (ops : List Operation) : Option UInt8 :=
  ops.reverse.findSome? (·.mirrored? size address)

theorem lastMirrored?_append_singleton (size : Nat) (address : UInt16) (ops : List Operation)
    (op : Operation) :
    lastMirrored? size address (ops ++ [op]) =
      (op.mirrored? size address).or (lastMirrored? size address ops) := by
  unfold lastMirrored?
  rw [List.reverse_append, List.reverse_singleton, List.singleton_append, List.findSome?_cons]
  cases op.mirrored? size address <;> rfl

theorem prgAfter_of_number_ne {c : Cartridge} (other : c.board.number ≠ 0) (op : Operation) :
    c.prgAfter op = c.prg := by
  cases op with
  | cpuWrite address data step =>
    unfold prgAfter
    dsimp only
    split
    · rename_i offset reached
      exact absurd (Board.cpuWrite_fst_eq_prg_iff.mp reached).1 other
    · rfl
  | cpuRead _ | patternRead _ | patternWrite _ _ | scanline | clearIrq | reset | setGate _ => rfl

/-- Pattern memory can be written where no ROM is. -/
theorem chrAfter_of_chrBanks_ne {c : Cartridge} (rom : c.chrBanks ≠ 0) (op : Operation) :
    c.chrAfter op = c.chr := by
  cases op with
  | patternWrite address data =>
    have refused : c.board.chrWrite address = none := by
      unfold Board.chrWrite
      exact if_pos (by simpa using .inr rom)
    rw [chrAfter, refused, Option.elim_none]
  | cpuRead _ | cpuWrite _ _ _ | patternRead _ | scanline | clearIrq | reset | setGate _ => rfl

/-- On an NROM board a write changes the byte that it has the image of, and no other. -/
theorem read_prgAfter {c : Cartridge} (wired : c.IsWired) (nrom : c.board.number = 0)
    (op : Operation) (address : UInt16) :
    let size := Board.mirrorSize c.board.banks
    (c.prgAfter op).read (address.toNat % size) =
      (op.mirrored? size address).getD (c.prg.read (address.toNat % size)) := by
  intro size
  -- Images in the mirror do not wrap around program memory.
  have inside (target : UInt16) : target.toNat % size % c.prg.size = target.toNat % size := by
    have image := Nat.mod_lt target.toNat (Board.mirrorSize_pos c.board.banks)
    exact Nat.mod_eq_of_lt (Nat.lt_of_lt_of_le image (wired.prg ▸ Board.mirrorSize_le _))
  cases op with
  | cpuWrite target data step =>
    unfold prgAfter Operation.mirrored?
    dsimp only
    by_cases upper : 0x8000 ≤ target
    · have reached : (c.board.cpuWrite target data step).1 = some (.prg (target.toNat % size)) :=
        Board.cpuWrite_fst_eq_prg_iff.mpr ⟨nrom, upper, rfl⟩
      rw [reached]
      dsimp only
      rw [Block.read_write, inside, inside]
      by_cases same : target.toNat % size = address.toNat % size
      · rw [if_pos same, if_pos ⟨upper, same⟩, Option.getD_some]
      · rw [if_neg same, if_neg fun hit => same hit.2, Option.getD_none]
    · rw [if_neg fun hit => upper hit.1, Option.getD_none]
      split
      · rename_i offset reached
        exact absurd (Board.cpuWrite_fst_eq_prg_iff.mp reached).2.1 upper
      · rfl
  | cpuRead _ | patternRead _ | patternWrite _ _ | scanline | clearIrq | reset | setGate _ => rfl

/-! ### Runs -/

section Runs

variable {δ : Type} [FileStore δ]

theorem prg_apply (s : Cartridge × δ) (op : Operation) : (apply s op).1.prg = s.1.prgAfter op := by
  obtain ⟨persistence, changed⟩ := exists_apply_eq_change s op
  rw [changed]
  rfl

theorem chr_apply (s : Cartridge × δ) (op : Operation) : (apply s op).1.chr = s.1.chrAfter op := by
  obtain ⟨persistence, changed⟩ := exists_apply_eq_change s op
  rw [changed]
  rfl

/-- A run keeps the sizes of memory, and the board stays of its kind, with its banks. -/
theorem kept_run (c : Cartridge) (store : δ) (ops : List Operation) :
    let c' := (ops.foldl apply (c, store)).1
    c'.prg.size = c.prg.size ∧ c'.chr.size = c.chr.size ∧
      c'.board.number = c.board.number ∧ c'.board.banks = c.board.banks := by
  refine List.foldlRecOn ops apply
    (motive := fun s : Cartridge × δ => s.1.prg.size = c.prg.size ∧ s.1.chr.size = c.chr.size ∧
      s.1.board.number = c.board.number ∧ s.1.board.banks = c.board.banks)
    ⟨rfl, rfl, rfl, rfl⟩ ?_
  intro s ⟨prg, chr, number, banks⟩ op _
  obtain ⟨prg', chr', persistence, moved, prg_size, chr_size⟩ := exists_apply s op
  rw [moved]
  exact ⟨prg_size.trans prg, chr_size.trans chr, (Board.number_apply ..).trans number,
    (Board.banks_apply ..).trans banks⟩

theorem prg_run_of_number_ne {c : Cartridge} (other : c.board.number ≠ 0) (store : δ)
    (ops : List Operation) : (ops.foldl apply (c, store)).1.prg = c.prg := by
  induction ops using List.reverseRecOn with
  | nil => rfl
  | append_singleton ops op ih =>
    obtain ⟨-, -, number, -⟩ := kept_run c store ops
    rw [List.foldl_concat, prg_apply, prgAfter_of_number_ne (number.symm ▸ other), ih]

theorem chr_run_of_chrBanks_ne {c : Cartridge} (rom : c.chrBanks ≠ 0) (store : δ)
    (ops : List Operation) : (ops.foldl apply (c, store)).1.chr = c.chr := by
  induction ops using List.reverseRecOn with
  | nil => rfl
  | append_singleton ops op ih =>
    have still_rom : (ops.foldl apply (c, store)).1.chrBanks ≠ 0 :=
      (chrBanks_run c store ops).symm ▸ rom
    rw [List.foldl_concat, chr_apply, chrAfter_of_chrBanks_ne still_rom, ih]

/-- On an NROM board every byte is the last one written to an image of its address. -/
theorem read_prg_run {c : Cartridge} (wired : c.IsWired) (nrom : c.board.number = 0) (store : δ)
    (ops : List Operation) (address : UInt16) :
    let size := Board.mirrorSize c.board.banks
    (ops.foldl apply (c, store)).1.prg.read (address.toNat % size) =
      (lastMirrored? size address ops).getD (c.prg.read (address.toNat % size)) := by
  intro size
  induction ops using List.reverseRecOn with
  | nil => rfl
  | append_singleton ops op ih =>
    obtain ⟨-, -, number, banks⟩ := kept_run c store ops
    have last := read_prgAfter (wired.run store ops) (number.trans nrom) op address
    rw [banks] at last
    rw [List.foldl_concat, prg_apply, last, ih, lastMirrored?_append_singleton]
    cases op.mirrored? size address <;> rfl

/-- **Runs leave ROM alone.** Whatever is done to a loaded cartridge, program and pattern memory
keep their sizes. Pattern memory keeps its bytes if the header declares pattern ROM, and program
memory keeps them on every board but NROM. On an NROM board the processor reads at every address
from $8000 on the last byte that was written to any such address congruent to it, modulo 16 KiB
with one bank and 32 KiB with more, and the byte that was loaded if there was none. -/
theorem rom_immutable {c : Cartridge} (loaded : IsLoaded δ c) (store : δ) (ops : List Operation) :
    let c' := (ops.foldl apply (c, store)).1
    c'.prg.size = c.prg.size ∧ c'.chr.size = c.chr.size ∧
      ((c.header.extent c.container).chrBanks ≠ 0 → c'.chr = c.chr) ∧
      (c.board.number ≠ 0 → c'.prg = c.prg) ∧
      (c.board.number = 0 → ∀ address : UInt16, 0x8000 ≤ address →
        let size := if c.prgBanks = 1 then 16384 else 32768
        c'.cpuRead address =
          some ((lastMirrored? size address ops).getD
            (byteAt c.prg.bytes (address.toNat % size)))) := by
  intro c'
  have wired := IsWired.of_isLoaded loaded
  obtain ⟨prg_size, chr_size, number, banks⟩ := kept_run c store ops
  refine ⟨prg_size, chr_size, ?_, ?_, ?_⟩
  · intro declared
    exact chr_run_of_chrBanks_ne (loaded.chrBanks_eq.symm ▸ declared) store ops
  · intro other
    exact prg_run_of_number_ne other store ops
  · intro nrom address upper size
    have reached := Board.cpuRead_of_number_eq_zero (number.trans nrom) upper
    rw [banks] at reached
    have image : address.toNat % size < c.prg.size :=
      Nat.lt_of_lt_of_le (Nat.mod_lt _ (Board.mirrorSize_pos c.board.banks))
        (wired.prg ▸ Board.mirrorSize_le _)
    have brought := c.prg.read_eq_byteAt (address.toNat % size)
    rw [Nat.mod_eq_of_lt image] at brought
    rw [cpuRead, reached, ← brought]
    exact congrArg some (read_prg_run wired nrom store ops address)

end Runs

/-- With one bank, a byte that is written to its second image is read in the first. -/
theorem rom_immutable_of_bank :
    ∃ c, IsLoaded Disk c ∧ c.board.number = 0 ∧ c.prgBanks = 1 ∧ ∀ (store : Disk) (data : UInt8),
      let c' := ([.cpuWrite 0xC005 data 0, .reset].foldl apply (c, store)).1
      c'.prg.size = c.prg.size ∧ c'.cpuRead 0x8005 = some data ∧ c'.cpuRead 0xC005 = some data := by
  have untrained : (0x00 : UInt8) &&& 0x04 = 0 := by decide
  obtain ⟨c, loaded, -, powered, -⟩ := exists_ofImage_bank untrained (by decide)
  have nrom : c.board.number = 0 := by
    rw [← Option.some.inj powered]
    rfl
  have single : c.prgBanks = 1 := by
    rw [prgBanks, (isMadeOf_of_ofImage loaded).2.prgBanks,
      declaredExtent_bank untrained (.inr rfl)]
  refine ⟨c, .ofImage loaded, nrom, single, ?_⟩
  intro store data c'
  obtain ⟨size, -, -, -, answers⟩ :=
    rom_immutable (.ofImage loaded) store [.cpuWrite 0xC005 data 0, .reset]
  refine ⟨size, ?_, ?_⟩
  · have answer := answers nrom 0x8005 (by decide)
    rw [single] at answer
    exact answer
  · have answer := answers nrom 0xC005 (by decide)
    rw [single] at answer
    exact answer

end Cartridge

end Famicom
