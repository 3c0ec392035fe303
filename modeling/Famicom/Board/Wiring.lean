import Famicom.Memory.Block

/-!
# What a board is wired to

The words that all cartridge boards share: how many banks of memory a board carries, which of them
an access of the processor reaches, and how the picture unit's name tables are laid out.

## Main definitions

* `NametableLayout` — the layout of the name tables
* `BankCounts` — the memory on a board
* `ReadTarget`, `WriteTarget` — what an access of the processor reaches
-/

namespace Famicom

/-- The layout of the name tables. -/
inductive NametableLayout where
  | horizontal
  | vertical
  | oneScreenLower
  | oneScreenUpper
  | fourScreen
  /-- The board leaves the layout to its soldering. -/
  | hardware
  deriving DecidableEq, Repr

/-- The layout that a board with a horizontal/vertical switch chooses by bit 0 of a byte. -/
def NametableLayout.ofSwitch (data : UInt8) : NametableLayout :=
  if data &&& 0x01 != 0 then .horizontal else .vertical

namespace Board

/-- The memory on a board: program ROM in banks of 16 KiB, of which there is at least one, and
pattern ROM in banks of 8 KiB. A board without pattern ROM carries 8 KiB of pattern RAM. -/
structure BankCounts where
  prg : Nat
  chr : Nat
  prg_pos : 0 < prg
  deriving DecidableEq, Repr

/-- The memory that a header declares, with one bank of program ROM at least. -/
def BankCounts.ofDeclared (prg chr : Nat) : BankCounts :=
  ⟨max prg 1, chr, Nat.lt_of_lt_of_le Nat.one_pos (Nat.le_max_right _ _)⟩

/-- What a processor read reaches. -/
inductive ReadTarget where
  /-- A byte of program ROM. -/
  | prg (offset : Nat)
  /-- A byte that the board itself keeps. -/
  | ram (byte : UInt8)
  deriving DecidableEq, Repr

/-- What a processor write reaches, registers apart. -/
inductive WriteTarget where
  | prg (offset : Nat)
  | ram
  deriving DecidableEq, Repr

/-- The bytes of RAM on a board that has any. -/
def ramSize : Nat :=
  32768

/-- The RAM at power-on. -/
def blankRam : Block :=
  .zeros ramSize (by decide)

/-- The part of an address below the size of a bank. -/
@[inline] def within (address : UInt16) (bankSize : Nat) : Nat :=
  address.toNat % bankSize

/-- The offset in program ROM on a board without bank switching: one bank of 16 KiB is seen
twice. -/
@[inline] def fixedPrg (banks : BankCounts) (address : UInt16) : Nat :=
  within address (if 1 < banks.prg then 0x8000 else 0x4000)

end Board

end Famicom
