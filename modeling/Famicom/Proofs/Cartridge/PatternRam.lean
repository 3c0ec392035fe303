import Famicom.Proofs.Cartridge.OffsetRange

/-!
# Pattern RAM

A cartridge without pattern ROM carries 8 KiB of pattern RAM, which the picture unit writes and
reads through two translations of its own. On five of the six boards they agree, whatever was
programmed: the byte that was written is read back.

An MMC2 board does not agree with itself. Its writes go to the address they name, its reads through
the bank of 4 KiB that is in force in the window of the address. A byte is read back exactly where
that bank, among the two that there are, is the one the address lies in; elsewhere the read goes to
the other half of the memory, which the write leaves alone. At power-on both windows show the lower
half.

## Main definitions

* `Board.readsBack` — where reads and writes reach the same byte

## Main results

* `Board.exists_chrOffsets` — both translations of an address of pattern RAM
* `Cartridge.patternRam_readsBack` — what is read right after a write, in any state
* `Cartridge.patternRam_not_readBack` — a byte that is not read back
-/

namespace Famicom

namespace Board

/-- The window of pattern memory that an address is in. -/
def Mmc2.windowAt (b : Mmc2) (address : UInt16) : Mmc2.ChrWindow :=
  if address &&& 0x1000 == 0 then b.lower else b.upper

/-- A read of pattern RAM reaches the byte that a write to the same address reaches: on an MMC2
board, if the bank in force is the one that the address lies in. -/
def readsBack (b : Board) (address : UInt16) : Bool :=
  match b with
  | .mmc2 b => (b.windowAt address).bank.toNat % 2 == address.toNat / 0x1000
  | _ => true

theorem readsBack_of_number_ne {b : Board} (other : b.number ≠ 9) (address : UInt16) :
    b.readsBack address = true := by
  cases b with
  | mmc2 _ => exact absurd rfl other
  | nrom _ | mmc1 _ | uxrom _ | cnrom _ | mmc3 _ => rfl

theorem Mmc2.fetch_fst (b : Mmc2) (address : UInt16) :
    (b.fetch address).1 = b.chrOffset (b.windowAt address) address := by
  unfold fetch windowAt
  split <;> rfl

/-- Of pattern RAM there are two banks of 4 KiB. -/
theorem Mmc2.chrOffset_eq_iff {b : Mmc2} (ram : b.banks.chr = 0) (window : ChrWindow)
    (address : UInt16) :
    b.chrOffset window address = address.toNat ↔
      window.bank.toNat % 2 = address.toNat / 0x1000 := by
  have whole : 0x1000 * (address.toNat / 0x1000) + address.toNat % 0x1000 = address.toNat :=
    Nat.div_add_mod ..
  unfold chrOffset within
  rw [ram, Nat.zero_mul, Nat.zero_max]
  omega

/-- A write to pattern RAM goes somewhere, and so does a read of the same address. -/
theorem exists_chrOffsets {b : Board} (range : b.InRange) (ram : b.banks.chr = 0)
    {address : UInt16} (pattern : address < chrEnd) :
    ∃ written read, b.chrWrite address = some written ∧ (b.chrRead address).1 = some read ∧
      (written = read ↔ b.readsBack address = true) := by
  have inside : ¬ chrEnd ≤ address := UInt16.not_le.mpr pattern
  have below : address.toNat < 0x2000 := pattern
  have writable : ¬ (decide (chrEnd ≤ address) || b.banks.chr != 0) = true := by
    simp [inside, ram]
  unfold chrWrite chrRead
  rw [if_neg writable, if_neg inside]
  cases b with
  | nrom _ | mmc1 _ | uxrom _ | mmc3 _ => exact ⟨_, _, rfl, rfl, by simp [readsBack]⟩
  | cnrom b =>
    -- Without pattern ROM there is no bank to choose but the first.
    have first : b.chrBank = 0 := by
      have chosen : b.chrBank < max b.banks.chr 1 := range
      have none : b.banks.chr = 0 := ram
      omega
    refine ⟨_, _, rfl, rfl, iff_of_true ?_ rfl⟩
    rw [Cnrom.chrOffset, first, Nat.zero_mul, Nat.zero_add, within, Nat.mod_eq_of_lt below]
  | mmc2 b =>
    refine ⟨_, _, rfl, rfl, ?_⟩
    rw [b.fetch_fst, eq_comm, Mmc2.chrOffset_eq_iff ram, readsBack, beq_iff_eq]

end Board

namespace Cartridge

theorem patternRead_fst (c : Cartridge) (address : UInt16) :
    (c.patternRead address).1 = (c.board.chrRead address).1.map c.chr.read :=
  rfl

/-- A byte that is written to pattern RAM is read back where reads reach it, and changes nothing for
them where they do not. -/
theorem IsWired.patternRead_patternWrite {c : Cartridge} (wired : c.IsWired) (ram : c.chrBanks = 0)
    {address : UInt16} (pattern : address < Board.chrEnd) (data : UInt8) :
    (c.patternWrite address data).1 = true ∧
      ((c.patternWrite address data).2.patternRead address).1 =
        if c.board.readsBack address then some data else (c.patternRead address).1 := by
  obtain ⟨written, read, writes, reads, same_iff⟩ :=
    Board.exists_chrOffsets wired.range ram pattern
  -- Neither offset wraps, so they name one byte only if they are equal.
  have inside := wired.wrapsNothing
  have written_inside : written % c.chr.size = written := inside.patternWrite address written writes
  have read_inside : read % c.chr.size = read := inside.patternRead address read reads
  have changed :
      c.patternWrite address data = (true, { c with chr := c.chr.write written data }) := by
    unfold patternWrite
    rw [writes]
  refine ⟨congrArg Prod.fst changed, ?_⟩
  rw [changed]
  simp only [patternRead_fst, reads, Option.map_some, Block.read_write, written_inside, read_inside]
  by_cases same : written = read
  · rw [if_pos same, if_pos (same_iff.mp same)]
  · rw [if_neg same, if_neg (mt same_iff.mpr same)]

section Runs

variable {δ : Type} [FileStore δ]

theorem IsWired.run {c : Cartridge} (wired : c.IsWired) (store : δ) (ops : List Operation) :
    (ops.foldl Cartridge.apply (c, store)).1.IsWired :=
  List.foldlRecOn ops Cartridge.apply (motive := fun s : Cartridge × δ => s.1.IsWired) wired
    fun _ kept op _ => kept.apply op

theorem chrBanks_apply (s : Cartridge × δ) (op : Operation) :
    (apply s op).1.chrBanks = s.1.chrBanks := by
  obtain ⟨prg, chr, persistence, moved, -⟩ := exists_apply s op
  rw [moved, chrBanks, chrBanks, Board.banks_apply]

theorem chrBanks_run (c : Cartridge) (store : δ) (ops : List Operation) :
    (ops.foldl apply (c, store)).1.chrBanks = c.chrBanks :=
  List.foldlRecOn ops apply (motive := fun s : Cartridge × δ => s.1.chrBanks = c.chrBanks) rfl
    fun s kept op _ => (chrBanks_apply s op).trans kept

/-- **Pattern RAM is a memory, but on MMC2 boards only where reads reach what is written.** On a
cartridge without pattern ROM, in any state, every write to pattern memory is taken. A read of the
same address right after it finds the byte on every board but MMC2, and there exactly where the bank
in force is the one that the address lies in; elsewhere it finds what it would have found before. -/
theorem patternRam_readsBack {c : Cartridge} (loaded : IsLoaded δ c) (ram : c.chrBanks = 0)
    (store : δ) (ops : List Operation) {address : UInt16} (pattern : address < Board.chrEnd) :
    let c' := (ops.foldl apply (c, store)).1
    (c'.board.number ≠ 9 → c'.board.readsBack address = true) ∧
      ∀ data, (c'.patternWrite address data).1 = true ∧
        ((c'.patternWrite address data).2.patternRead address).1 =
          if c'.board.readsBack address then some data else (c'.patternRead address).1 := by
  intro c'
  have wired : c'.IsWired := (IsWired.of_isLoaded loaded).run store ops
  have still_ram : c'.chrBanks = 0 := (chrBanks_run c store ops).trans ram
  exact ⟨fun other => c'.board.readsBack_of_number_ne other address,
    fun data => wired.patternRead_patternWrite still_ram pattern data⟩

end Runs

/-! ### A blank MMC2 cartridge -/

/-- The image of an MMC2 cartridge without pattern ROM. -/
def blankMmc2Image : ByteArray :=
  blankImage (bankHeader 0x90) 16384

theorem exists_blankMmc2 :
    ∃ c, ofImage blankMmc2Image = .ok c ∧ c.chrBanks = 0 ∧ c.chr.bytes = zeroBytes 8192 ∧
      c.board = .mmc2 { banks := c.board.banks } := by
  have untrained : (0x90 : UInt8) &&& 0x04 = 0 := by decide
  obtain ⟨c, loaded, -, powered, none_declared, blank⟩ :=
    exists_ofImage_bank untrained (by decide)
  exact ⟨c, loaded, none_declared, blank, (Option.some.inj powered).symm⟩

/-- At power-on the upper window shows the lower half, so a byte that is written to the upper half
is not read back. -/
theorem patternRam_not_readBack :
    ∃ c, ofImage blankMmc2Image = .ok c ∧ c.chrBanks = 0 ∧ (0x1000 : UInt16) < Board.chrEnd ∧
      (c.patternWrite 0x1000 0x5A).1 = true ∧
      ((c.patternWrite 0x1000 0x5A).2.patternRead 0x1000).1 = some 0x00 := by
  obtain ⟨c, loaded, ram, blank, board⟩ := exists_blankMmc2
  have pattern : (0x1000 : UInt16) < Board.chrEnd := by decide
  have wired := IsWired.ofImage loaded
  have elsewhere : c.board.readsBack 0x1000 = false := by
    rw [board]
    rfl
  obtain ⟨-, read, -, reads, -⟩ := Board.exists_chrOffsets wired.range ram pattern
  obtain ⟨taken, answer⟩ := wired.patternRead_patternWrite ram pattern 0x5A
  refine ⟨c, loaded, ram, pattern, taken, ?_⟩
  rw [answer, elsewhere, patternRead_fst, reads, Option.map_some, Block.read_eq_byteAt, blank,
    byteAt_zeroBytes]
  rfl

/-- Once the upper window shows the upper half, bytes are read back there. -/
theorem patternRam_readsBack_of_window :
    ∃ c, IsLoaded Disk c ∧ c.chrBanks = 0 ∧ (0x1000 : UInt16) < Board.chrEnd ∧
      ∀ (store : Disk) (data : UInt8),
        let c' := ([.cpuWrite 0xD000 0x01 0].foldl apply (c, store)).1
        c'.board.number = 9 ∧ (c'.patternWrite 0x1000 data).1 = true ∧
          ((c'.patternWrite 0x1000 data).2.patternRead 0x1000).1 = some data := by
  obtain ⟨c, loaded, ram, -, board⟩ := exists_blankMmc2
  have pattern : (0x1000 : UInt16) < Board.chrEnd := by decide
  refine ⟨c, .ofImage loaded, ram, pattern, ?_⟩
  intro store data c'
  have upper : c'.board = c.board.apply (.cpuWrite 0xD000 0x01 0) := by
    obtain ⟨prg, chr, persistence, moved, -⟩ := exists_apply (c, store) (.cpuWrite 0xD000 0x01 0)
    exact congrArg Cartridge.board moved
  have shown : c'.board.readsBack 0x1000 = true := by
    rw [upper, board]
    rfl
  obtain ⟨-, answers⟩ := patternRam_readsBack (.ofImage loaded) ram store
    [.cpuWrite 0xD000 0x01 0] pattern
  obtain ⟨taken, answer⟩ := answers data
  refine ⟨?_, taken, ?_⟩
  · rw [upper, board]
    rfl
  · rw [answer, if_pos shown]

end Cartridge

end Famicom
