import Famicom.Cartridge.Basic

/-!
# Runs of boards and cartridges

What can be done to a board, in any order. Nothing of it can fail, so a run is a fold. What can be
done to a cartridge does to its board one thing that can be done to boards, and brings or takes
memory and a save.

## Main definitions

* `Board.Operation`, `Board.apply` — what can be done to a board
* `Board.sinceReset` — a history since power-on or the last reset
* `Cartridge.Operation`, `Cartridge.apply` — what can be done to a cartridge with a file system
* `Cartridge.IsLoaded` — a cartridge as it comes from an image or from a file
* `Cartridge.blank` — a cartridge to try things out on

## Main results

* `Cartridge.exists_apply` — an operation of a cartridge is one of its board, and keeps the sizes of
  its memory
-/

namespace Famicom

/-! ### Boards -/

namespace Board

/-- What can be done to a board. -/
inductive Operation where
  | cpuRead (address : UInt16)
  | cpuWrite (address : UInt16) (data : UInt8) (step : UInt64)
  | chrRead (address : UInt16)
  | chrWrite (address : UInt16)
  | scanline
  | clearIrq
  | reset
  | setGate (enabled : Bool)
  | loadRam (image : ByteArray)

/-- The board after an operation. A board without RAM has no use for an image of it. -/
def apply (b : Board) : Operation → Board
  | .cpuRead _ => b
  | .cpuWrite address data step => (b.cpuWrite address data step).2
  | .chrRead address => (b.chrRead address).2
  | .chrWrite _ => b
  | .scanline => b.scanline
  | .clearIrq => b.clearIrq
  | .reset => b.reset
  | .setGate enabled => b.setGate enabled
  | .loadRam image => (b.loadRam image).getD b

/-- The reset line of the console is pulled. -/
def Operation.isReset : Operation → Bool
  | .reset => true
  | _ => false

/-- What was done since power-on or the last reset, the latest first. -/
def sinceReset (ops : List Operation) : List Operation :=
  ops.reverse.takeWhile fun op => !op.isReset

theorem sinceReset_concat (ops : List Operation) (op : Operation) :
    sinceReset (ops ++ [op]) = if op.isReset then [] else op :: sinceReset ops := by
  cases reset : op.isReset <;> simp [sinceReset, reset]

end Board

/-! ### Cartridges -/

namespace Cartridge

variable {δ : Type} [FileStore δ]

/-- A cartridge as it comes from an image, or from a file with its save. -/
inductive IsLoaded (δ : Type) [FileStore δ] : Cartridge → Prop
  | ofImage {image : ByteArray} {c : Cartridge} (loaded : Cartridge.ofImage image = .ok c) :
    IsLoaded δ c
  | openFile {path : String} {saveDirectory : Option String} {store : δ} {c : Cartridge}
    (opened : Cartridge.openFile path saveDirectory store = .ok c) : IsLoaded δ c

/-- What can be done to a cartridge. -/
inductive Operation where
  | cpuRead (address : UInt16)
  | cpuWrite (address : UInt16) (data : UInt8) (step : UInt64)
  | patternRead (address : UInt16)
  | patternWrite (address : UInt16) (data : UInt8)
  | scanline
  | clearIrq
  | reset
  | setGate (enabled : Bool)

/-- What an operation is for the board. -/
def Operation.onBoard : Operation → Board.Operation
  | .cpuRead address => .cpuRead address
  | .cpuWrite address data step => .cpuWrite address data step
  | .patternRead address => .chrRead address
  | .patternWrite address _ => .chrWrite address
  | .scanline => .scanline
  | .clearIrq => .clearIrq
  | .reset => .reset
  | .setGate enabled => .setGate enabled

/-- The cartridge and the file system after an operation. -/
def apply (s : Cartridge × δ) : Operation → Cartridge × δ
  | .cpuRead _ => s
  | .cpuWrite address data step => (s.1.cpuWrite address data step s.2).2
  | .patternRead address => ((s.1.patternRead address).2, s.2)
  | .patternWrite address data => ((s.1.patternWrite address data).2, s.2)
  | .scanline => (s.1.scanline, s.2)
  | .clearIrq => (s.1.clearIrq, s.2)
  | .reset => (s.1.reset, s.2)
  | .setGate enabled => (s.1.setGate enabled, s.2)

/-- Saving RAM may change what is kept of it. -/
theorem exists_persist (c : Cartridge) (store : δ) :
    ∃ persistence, (c.persist store).1 = { c with persistence } := by
  unfold persist
  split
  · split <;> exact ⟨_, rfl⟩
  · exact ⟨c.persistence, rfl⟩

/-- A processor write goes to the board, and may change a byte of program memory. -/
theorem exists_cpuWrite (c : Cartridge) (address : UInt16) (data : UInt8) (step : UInt64)
    (store : δ) :
    ∃ prg persistence, (c.cpuWrite address data step store).2.1 =
        { c with prg, persistence, board := (c.board.cpuWrite address data step).2 } ∧
      prg.size = c.prg.size := by
  obtain ⟨header, container, prg, chr, board, persistence⟩ := c
  unfold cpuWrite
  dsimp only
  split
  · rename_i board' written
    exact ⟨prg, persistence, by rw [written], rfl⟩
  · rename_i offset board' written
    exact ⟨_, persistence, by rw [written], Block.size_write ..⟩
  · rename_i board' written
    rw [written]
    split
    · obtain ⟨persistence', saved⟩ :=
        exists_persist ⟨header, container, prg, chr, board', persistence⟩ store
      exact ⟨prg, persistence', saved, rfl⟩
    · exact ⟨prg, persistence, rfl, rfl⟩

/-- An operation is one of the board, and may change bytes of memory but not their number. -/
theorem exists_apply (s : Cartridge × δ) (op : Operation) :
    ∃ prg chr persistence, (apply s op).1 =
        { s.1 with prg, chr, persistence, board := s.1.board.apply op.onBoard } ∧
      prg.size = s.1.prg.size ∧ chr.size = s.1.chr.size := by
  obtain ⟨c, store⟩ := s
  cases op with
  | cpuWrite address data step =>
    obtain ⟨prg, persistence, written, size⟩ := c.exists_cpuWrite address data step store
    exact ⟨prg, c.chr, persistence, written, size, rfl⟩
  | patternWrite address data =>
    unfold apply patternWrite
    dsimp only
    split
    · exact ⟨c.prg, _, c.persistence, rfl, rfl, Block.size_write ..⟩
    · exact ⟨c.prg, c.chr, c.persistence, rfl, rfl, rfl⟩
  | cpuRead _ | patternRead _ | scanline | clearIrq | reset | setGate _ =>
    exact ⟨c.prg, c.chr, c.persistence, rfl, rfl, rfl⟩

/-- A cartridge with a bank of blank memory of each kind. -/
def blank (board : Board.BankCounts → Board) : Cartridge :=
  let banks : Board.BankCounts := ⟨1, 1, by decide⟩
  { header := ⟨1, 1, (board banks).number <<< 4, 0, 0, 0, 0, .replicate 5 0⟩
    container := .ines
    prg := .zeros 16384 (by decide)
    chr := .zeros 8192 (by decide)
    board := board banks }

end Cartridge

end Famicom
