import Famicom.Arithmetic.Checked
import Famicom.Board.Basic

/-!
# Boards in 64-bit words

A board may be wired for more banks than any memory holds. Offsets are 64-bit words all the same,
and an access on such a board is refused if a product on the way to its offset is too large for one.

Only products of bank counts are at stake. Bank numbers come from bytes, so that their offsets
always fit. A header declares fewer than 2048 banks, which is why cartridges use the plain accesses:
within `BankCounts.Fits` the two kinds agree.

## Main definitions

* `Board.powerOnProducts`, `Board.cpuReadProducts`, `Board.cpuWriteProducts`,
  `Board.chrReadProducts` — the products of bank counts that an access makes
* `Board.powerOn`, `Board.cpuReadChecked`, `Board.cpuWriteChecked`, `Board.chrReadChecked` — the
  accesses, refused where a product is too large
* `Board.BankCounts.Fits` — counts whose products are all words

## Main results

* `Board.powerOn_of_fits`, `Board.cpuReadChecked_of_fits`, `Board.cpuWriteChecked_of_fits`,
  `Board.chrReadChecked_of_fits` — with counts that fit, no access is refused
-/

namespace Famicom.Board

/-! ### Products -/

/-- The offset of the last bank of 8 KiB on an MMC3 board. -/
def Mmc3.lastPrgOffset (banks : BankCounts) : Nat :=
  (prgCount banks - 1) * 0x2000

/-- The products of power-on. A reset makes the same ones again. -/
def powerOnProducts : Board → List Nat
  | .mmc3 b => [Mmc3.prgCount b.banks, Mmc3.lastPrgOffset b.banks]
  | _ => []

/-- The products of a processor read. An MMC2 board counts its banks before it looks at the
address. -/
def cpuReadProducts (b : Board) (address : UInt16) : List Nat :=
  match b with
  | .uxrom b => if 0xC000 ≤ address then [b.high * 0x4000] else []
  | .mmc2 b =>
    if 0x8000 ≤ address then [b.prgCount, b.prgBankAt address * 0x2000] else [b.prgCount]
  | _ => []

/-- The products of a processor write. An MMC3 board finds all its windows again when a bank
register or a mode changes. -/
def cpuWriteProducts (b : Board) (address : UInt16) : List Nat :=
  match b with
  | .mmc3 b =>
    if 0x8000 ≤ address && address < 0xA000 then
      [b.banks.chr * 8, Mmc3.prgCount b.banks, Mmc3.lastPrgOffset b.banks]
    else
      []
  | _ => []

/-- The products of a read of the picture unit. Writes make none, because they reach boards without
pattern ROM alone. -/
def chrReadProducts (b : Board) (address : UInt16) : List Nat :=
  if chrEnd ≤ address then
    []
  else
    match b with
    | .mmc1 b => if b.registers.splitsChr then [b.banks.chr * 2] else []
    | .mmc2 b => [b.banks.chr * 2]
    | _ => []

/-! ### Accesses -/

/-- The board with a mapper number at power-on, if it is supported. -/
def powerOn (number : UInt8) (banks : BankCounts) : Except Fault (Option Board) :=
  match ofNumber? number banks with
  | some b => Checked.afterProducts b.powerOnProducts (some b)
  | none => .ok none

/-- What a processor read reaches, if the board answers it. -/
def cpuReadChecked (b : Board) (address : UInt16) : Except Fault (Option ReadTarget) :=
  Checked.afterProducts (b.cpuReadProducts address) (b.cpuRead address)

/-- What a processor write reaches, if the board takes it as memory. -/
def cpuWriteChecked (b : Board) (address : UInt16) (data : UInt8) (step : UInt64) :
    Except Fault (Option WriteTarget × Board) :=
  Checked.afterProducts (b.cpuWriteProducts address) (b.cpuWrite address data step)

/-- The offset in pattern memory that a read of the picture unit reaches. -/
def chrReadChecked (b : Board) (address : UInt16) : Except Fault (Option Nat × Board) :=
  Checked.afterProducts (b.chrReadProducts address) (b.chrRead address)

/-! ### Counts that fit -/

/-- Counts of banks whose products are all 64-bit words: 2 ^ 50 banks of program memory at most, and
fewer than 2 ^ 61 of pattern memory. -/
structure BankCounts.Fits (banks : BankCounts) : Prop where
  prg_le : banks.prg ≤ 1125899906842624
  chr_lt : banks.chr < 2305843009213693952

/-- A bank of 8 KiB on an MMC2 board is a byte or one of the last. -/
theorem Mmc2.prgBankAt_le (b : Mmc2) (address : UInt16) :
    b.prgBankAt address ≤ max 255 (b.prgCount - 1) := by
  have byte : b.prgBank.toNat < 256 := b.prgBank.toNat_lt
  have wrapped := Nat.mod_le b.prgBank.toNat b.prgCount
  unfold prgBankAt
  split
  · omega
  · split
    · omega
    · split <;> omega

theorem powerOnProducts_lt {b : Board} (h : b.banks.Fits) :
    ∀ p ∈ b.powerOnProducts, p < Checked.words64 := by
  have prg_le := h.prg_le
  cases b with
  | mmc3 b =>
    simp only [banks] at prg_le
    simp only [powerOnProducts, Mmc3.lastPrgOffset, Mmc3.prgCount, Checked.words64,
      List.forall_mem_cons, List.not_mem_nil, false_implies, implies_true, and_true]
    omega
  | _ => exact List.forall_mem_nil _

theorem cpuReadProducts_lt {b : Board} (h : b.banks.Fits) (address : UInt16) :
    ∀ p ∈ b.cpuReadProducts address, p < Checked.words64 := by
  have prg_le := h.prg_le
  cases b with
  | uxrom b =>
    simp only [banks] at prg_le
    unfold cpuReadProducts
    dsimp only
    split
    · simp only [List.forall_mem_singleton, Uxrom.high, Checked.words64]
      omega
    · exact List.forall_mem_nil _
  | mmc2 b =>
    have bank_le := b.prgBankAt_le address
    simp only [banks] at prg_le
    simp only [Mmc2.prgCount] at bank_le
    unfold cpuReadProducts Checked.words64
    dsimp only
    split
    · simp only [List.forall_mem_cons, Mmc2.prgCount, List.not_mem_nil, false_implies, implies_true,
        and_true]
      omega
    · simp only [List.forall_mem_singleton, Mmc2.prgCount]
      omega
  | _ => exact List.forall_mem_nil _

theorem cpuWriteProducts_lt {b : Board} (h : b.banks.Fits) (address : UInt16) :
    ∀ p ∈ b.cpuWriteProducts address, p < Checked.words64 := by
  have prg_le := h.prg_le
  have chr_lt := h.chr_lt
  cases b with
  | mmc3 b =>
    simp only [banks] at prg_le chr_lt
    simp only [cpuWriteProducts, Mmc3.lastPrgOffset, Mmc3.prgCount, Checked.words64]
    split
    · simp only [List.forall_mem_cons, List.not_mem_nil, false_implies, implies_true, and_true]
      omega
    · exact List.forall_mem_nil _
  | _ => exact List.forall_mem_nil _

theorem chrReadProducts_lt {b : Board} (h : b.banks.Fits) (address : UInt16) :
    ∀ p ∈ b.chrReadProducts address, p < Checked.words64 := by
  have chr_lt := h.chr_lt
  unfold chrReadProducts
  split
  · exact List.forall_mem_nil _
  · cases b with
    | mmc1 b =>
      simp only [banks] at chr_lt
      simp only [Checked.words64]
      split
      · simp only [List.forall_mem_singleton]
        omega
      · exact List.forall_mem_nil _
    | mmc2 b =>
      simp only [banks] at chr_lt
      simp only [List.forall_mem_singleton, Checked.words64]
      omega
    | _ => exact List.forall_mem_nil _

/-- Power-on keeps the counts that a board is made for. -/
theorem banks_ofNumber? {number : UInt8} {counts : BankCounts} {b : Board}
    (h : ofNumber? number counts = some b) : b.banks = counts := by
  unfold ofNumber? at h
  split at h <;> cases h <;> rfl

theorem powerOn_of_fits (number : UInt8) {counts : BankCounts} (h : counts.Fits) :
    powerOn number counts = .ok (ofNumber? number counts) := by
  unfold powerOn
  split
  · rename_i b made
    rw [made]
    exact Checked.afterProducts_of_lt _ (powerOnProducts_lt (banks_ofNumber? made ▸ h))
  · rename_i unsupported
    rw [unsupported]

theorem cpuReadChecked_of_fits {b : Board} (h : b.banks.Fits) (address : UInt16) :
    b.cpuReadChecked address = .ok (b.cpuRead address) :=
  Checked.afterProducts_of_lt _ (cpuReadProducts_lt h address)

theorem cpuWriteChecked_of_fits {b : Board} (h : b.banks.Fits) (address : UInt16) (data : UInt8)
    (step : UInt64) : b.cpuWriteChecked address data step = .ok (b.cpuWrite address data step) :=
  Checked.afterProducts_of_lt _ (cpuWriteProducts_lt h address)

theorem chrReadChecked_of_fits {b : Board} (h : b.banks.Fits) (address : UInt16) :
    b.chrReadChecked address = .ok (b.chrRead address) :=
  Checked.afterProducts_of_lt _ (chrReadProducts_lt h address)

end Famicom.Board
