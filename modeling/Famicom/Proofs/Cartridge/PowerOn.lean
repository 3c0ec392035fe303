import Famicom.Board.WordSize
import Famicom.Proofs.Cartridge.BatteryRam

/-!
# A reset is a power-on

After a reset a board can no longer be told from a new one of its kind that was given what a reset
keeps: the RAM, the gate of an MMC1 board, and on an MMC2 board the pattern banks and the name
tables.

The two are not equal. An MMC1 board finds the windows it uses when a register changes, and leaves
the others as they were, so that after a reset those hold what was last found for them. They are
found again before they come into use, so that nothing which is done later brings them to light.

## Main definitions

* `Board.View`, `Board.view` — all that can be seen of a board
* `Board.Alike` — boards that differ in windows out of use, at most
* `Board.kept` — what gives a new board that which a reset keeps

## Main results

* `Board.Alike.apply` — boards that are alike stay so
* `Board.Alike.view_eq` — they look the same
* `Board.reset_view_eq` — what is seen after a reset is seen after a power-on
-/

namespace Famicom.Board

/-! ### Views -/

/-- All that can be seen of a board: the answers to every access, and its other outputs. -/
@[ext] structure View where
  number : UInt8
  cpuRead : UInt16 → Except Fault (Option ReadTarget)
  cpuWrite : UInt16 → UInt8 → UInt64 → Except Fault (Option WriteTarget)
  chrRead : UInt16 → Except Fault (Option Nat)
  chrWrite : UInt16 → Option Nat
  nametables : NametableLayout
  irqPending : Bool
  description : String
  ram? : Option Block

/-- What can be seen of a board. -/
def view (b : Board) : View where
  number := b.number
  cpuRead := b.cpuReadChecked
  cpuWrite address data step := Prod.fst <$> b.cpuWriteChecked address data step
  chrRead address := Prod.fst <$> b.chrReadChecked address
  chrWrite := b.chrWrite
  nametables := b.nametables
  irqPending := b.irqPending
  description := b.describe
  ram? := b.ram?

/-- The reset line of the console, refused where a product is too large. -/
def resetChecked (b : Board) : Except Fault Board :=
  Checked.afterProducts b.powerOnProducts b.reset

theorem map_afterProducts {α β : Type} (f : α → β) (products : List Nat) (value : α) :
    f <$> Checked.afterProducts products value = Checked.afterProducts products (f value) := by
  unfold Checked.afterProducts
  split <;> rfl

/-! ### Windows that are not in use -/

namespace Mmc1

/-- The windows that registers put to use hold the same banks. -/
structure Windows.AgreeOn (r : Registers) (w w' : Windows) : Prop where
  chr : if r.splitsChr then w.chrLow = w'.chrLow ∧ w.chrHigh = w'.chrHigh
    else w.chrWhole = w'.chrWhole
  prg : if r.joinsPrg then w.prgWhole = w'.prgWhole
    else w.prgLow = w'.prgLow ∧ w.prgHigh = w'.prgHigh

/-- Bits 3 and 2 of the control register choose how program memory is switched, and two of the four
choices join it. -/
theorem Registers.joinsPrg_iff (r : Registers) :
    r.joinsPrg = true ↔ (r.control >>> 2) &&& 0x03 ≠ 3 ∧ (r.control >>> 2) &&& 0x03 ≠ 2 := by
  have every : ∀ bits : Fin 256, (UInt8.ofFin bits &&& 0x08 == 0) = true ↔
      (UInt8.ofFin bits >>> 2) &&& 0x03 ≠ 3 ∧ (UInt8.ofFin bits >>> 2) &&& 0x03 ≠ 2 := by
    decide +kernel
  exact every r.control.toFin

/-- All windows that are in use are found, whatever the others hold. -/
theorem Windows.AgreeOn.update (banks : BankCounts) (r : Registers) (w w' : Windows) :
    (w.update banks r).AgreeOn r (w'.update banks r) := by
  have joined := r.joinsPrg_iff
  constructor <;> unfold Windows.update <;> dsimp only
  · split
    · split <;> simp [*]
    · split <;> simp [*]
  · split
    · split <;> simp_all
    · split <;> simp_all

variable {b : Mmc1} {w : Windows}

theorem Windows.AgreeOn.prgOffset (agree : b.windows.AgreeOn b.registers w) (address : UInt16) :
    ({ b with windows := w } : Mmc1).prgOffset address = b.prgOffset address := by
  have same := agree.prg
  unfold Mmc1.prgOffset
  split at same
  · simp only [*, if_true]
  · simp only [*, Bool.false_eq_true, if_false]

theorem Windows.AgreeOn.chrOffset (agree : b.windows.AgreeOn b.registers w) (address : UInt16) :
    ({ b with windows := w } : Mmc1).chrOffset address = b.chrOffset address := by
  have same := agree.chr
  unfold Mmc1.chrOffset
  split at same
  · simp only [*, if_true]
  · simp only [*, Bool.false_eq_true, if_false]

end Mmc1

/-! ### Boards that are alike -/

/-- Boards that differ at most in windows that an MMC1 board does not use. -/
inductive Alike : Board → Board → Prop
  | refl (b : Board) : Alike b b
  | windows {b : Mmc1} {w : Mmc1.Windows} (agree : b.windows.AgreeOn b.registers w) :
    Alike (.mmc1 b) (.mmc1 { b with windows := w })

namespace Alike

theorem updateWindows (b : Mmc1) (w : Mmc1.Windows) :
    Alike (.mmc1 b.updateWindows) (.mmc1 (Mmc1.updateWindows { b with windows := w })) :=
  .windows (b := b.updateWindows) (.update b.banks b.registers b.windows w)

/-- A write to the serial port leaves the registers as they are, or finds the windows again. -/
theorem writeBit {b : Mmc1} {w : Mmc1.Windows} (agree : b.windows.AgreeOn b.registers w)
    (address : UInt16) (data : UInt8) (step : UInt64) :
    Alike (.mmc1 (b.writeBit address data step))
      (.mmc1 (Mmc1.writeBit { b with windows := w } address data step)) := by
  obtain ⟨banks, ram, shift, registers, windows, nametables, serialGate, lastStep⟩ := b
  unfold Mmc1.writeBit Mmc1.drops
  dsimp only
  split
  · exact updateWindows _ w
  · split
    · exact .windows agree
    · -- The gate may note the instruction, which no window depends on.
      cases serialGate <;> simp only [Bool.false_eq_true, if_false, if_true] <;>
        rcases shift.push data with ⟨_ | value, shift⟩
      · exact .windows agree
      · exact updateWindows _ w
      · exact .windows agree
      · exact updateWindows _ w

/-- Boards that are alike stay so, whatever is done to both. -/
theorem apply {b b' : Board} (alike : Alike b b') (op : Operation) :
    Alike (b.apply op) (b'.apply op) := by
  cases alike with
  | refl => exact .refl _
  | @windows b w agree =>
    cases op with
    | cpuRead _ | chrWrite _ | scanline | clearIrq | setGate _ | loadRam _ => exact .windows agree
    | reset => exact updateWindows _ w
    | chrRead address =>
      change Alike (Board.chrRead _ _).2 (Board.chrRead _ _).2
      unfold Board.chrRead
      split <;> exact .windows agree
    | cpuWrite address data step =>
      change Alike (.mmc1 (Mmc1.cpuWrite _ _ _ _).2) (.mmc1 (Mmc1.cpuWrite _ _ _ _).2)
      unfold Mmc1.cpuWrite
      split_ifs
      · exact writeBit agree address data step
      · exact .windows agree
      · exact .windows agree

theorem foldl {b b' : Board} (alike : Alike b b') (ops : List Operation) :
    Alike (ops.foldl Board.apply b) (ops.foldl Board.apply b') := by
  induction ops generalizing b b' with
  | nil => exact alike
  | cons op ops ih => exact ih (alike.apply op)

/-- Boards that are alike look the same. -/
theorem view_eq {b b' : Board} (alike : Alike b b') : b.view = b'.view := by
  cases alike with
  | refl => rfl
  | @windows b w agree =>
    refine View.ext rfl ?cpuRead ?cpuWrite ?chrRead ?chrWrite rfl rfl rfl rfl
    case cpuRead =>
      funext address
      refine congrArg (Checked.afterProducts []) ?_
      simp only [cpuRead, Mmc1.cpuRead, agree.prgOffset]
    case cpuWrite =>
      funext address data step
      simp only [view, cpuWriteChecked, map_afterProducts, cpuWriteProducts, cpuWrite,
        Mmc1.cpuWrite]
      split_ifs <;> rfl
    case chrRead =>
      funext address
      simp only [view, chrReadChecked, map_afterProducts, chrReadProducts, chrRead, agree.chrOffset]
      split <;> rfl
    case chrWrite =>
      funext address
      simp only [view, chrWrite, agree.chrOffset]
      rfl

end Alike

/-! ### What a reset keeps -/

/-- The byte that switches to a horizontal or a vertical layout. -/
def switchTo (layout : NametableLayout) : UInt8 :=
  if layout = .horizontal then 1 else 0

/-- What gives a board at power-on that which another one keeps over a reset. -/
def kept : Board → List Operation
  | .mmc1 b => [.loadRam b.ram.bytes, .setGate b.serialGate]
  | .mmc3 b => [.loadRam b.ram.bytes]
  | .mmc2 b =>
    [.loadRam b.ram.bytes, .cpuWrite 0xB000 b.lower.fd 0, .cpuWrite 0xC000 b.lower.fe 0,
      .cpuWrite 0xD000 b.upper.fd 0, .cpuWrite 0xE000 b.upper.fe 0,
      .cpuWrite 0xF000 (switchTo b.nametables) 0]
  | _ => []

namespace Mmc2

/-- The banks of a window have five bits. -/
structure ChrWindow.IsProgrammed (w : ChrWindow) : Prop where
  fd : w.fd &&& 0x1F = w.fd
  fe : w.fe &&& 0x1F = w.fe

/-- What a board keeps over a reset can be programmed again. -/
structure IsProgrammed (b : Mmc2) : Prop where
  lower : b.lower.IsProgrammed
  upper : b.upper.IsProgrammed
  nametables : NametableLayout.ofSwitch (switchTo b.nametables) = b.nametables

theorem ofSwitch_switchTo_ofSwitch (data : UInt8) :
    NametableLayout.ofSwitch (switchTo (.ofSwitch data)) = .ofSwitch data := by
  unfold NametableLayout.ofSwitch
  split <;> rfl

theorem ChrWindow.IsProgrammed.powerOn : ({} : ChrWindow).IsProgrammed :=
  ⟨by decide, by decide⟩

theorem IsProgrammed.powerOn (banks : BankCounts) : ({ banks } : Mmc2).IsProgrammed :=
  ⟨.powerOn, .powerOn, ofSwitch_switchTo_ofSwitch 1⟩

theorem and_five_bits (data : UInt8) : data &&& 0x1F &&& 0x1F = data &&& 0x1F := by
  rw [UInt8.and_assoc]
  rfl

theorem ChrWindow.IsProgrammed.afterFetch {w : ChrWindow} (h : w.IsProgrammed)
    (address : UInt16) : (w.afterFetch address).IsProgrammed := by
  unfold ChrWindow.afterFetch
  split <;> exact ⟨h.fd, h.fe⟩

theorem IsProgrammed.writeRegister {b : Mmc2} (h : b.IsProgrammed) (address : UInt16)
    (data : UInt8) : (b.writeRegister address data).IsProgrammed := by
  unfold Mmc2.writeRegister
  split_ifs
  · exact h
  · exact ⟨h.lower, h.upper, h.nametables⟩
  · exact ⟨⟨and_five_bits data, h.lower.fe⟩, h.upper, h.nametables⟩
  · exact ⟨⟨h.lower.fd, and_five_bits data⟩, h.upper, h.nametables⟩
  · exact ⟨h.lower, ⟨and_five_bits data, h.upper.fe⟩, h.nametables⟩
  · exact ⟨h.lower, ⟨h.upper.fd, and_five_bits data⟩, h.nametables⟩
  · exact ⟨h.lower, h.upper, ofSwitch_switchTo_ofSwitch data⟩

theorem IsProgrammed.fetch {b : Mmc2} (h : b.IsProgrammed) (address : UInt16) :
    (b.fetch address).2.IsProgrammed := by
  unfold Mmc2.fetch
  split
  · exact ⟨h.lower.afterFetch address, h.upper, h.nametables⟩
  · exact ⟨h.lower, h.upper.afterFetch address, h.nametables⟩

end Mmc2

/-- What an MMC2 board keeps over a reset can be programmed again. -/
def IsProgrammed : Board → Prop
  | .mmc2 b => b.IsProgrammed
  | _ => True

theorem IsProgrammed.apply {b : Board} (h : b.IsProgrammed) (op : Operation) :
    (b.apply op).IsProgrammed := by
  cases b with
  | mmc2 b =>
    cases op with
    | cpuRead _ | chrWrite _ | scanline | clearIrq | setGate _ => exact h
    | loadRam _ => exact ⟨h.lower, h.upper, h.nametables⟩
    | reset => exact ⟨⟨h.lower.fd, h.lower.fe⟩, ⟨h.upper.fd, h.upper.fe⟩, h.nametables⟩
    | chrRead address =>
      change (Board.chrRead (.mmc2 b) address).2.IsProgrammed
      unfold Board.chrRead
      split
      · exact h
      · exact Mmc2.IsProgrammed.fetch h address
    | cpuWrite address data step =>
      change (b.cpuWrite address data).2.IsProgrammed
      unfold Mmc2.cpuWrite
      split_ifs
      · exact Mmc2.IsProgrammed.writeRegister h address data
      · exact ⟨h.lower, h.upper, h.nametables⟩
      · exact h
  | nrom _ | mmc1 _ | uxrom _ | cnrom _ | mmc3 _ =>
    cases op with
    | chrRead address =>
      change (Board.chrRead _ address).2.IsProgrammed
      unfold Board.chrRead
      split <;> trivial
    | _ => trivial

@[simp] theorem number_apply (b : Board) (op : Operation) : (b.apply op).number = b.number := by
  cases op with
  | chrRead address =>
    obtain same | ⟨m, rfl, flipped⟩ := b.chrRead_snd address
    · exact congrArg number same
    · exact (congrArg number flipped).trans rfl
  | _ => cases b <;> rfl

/-- A board that was made at power-on, and to which things may have been done since. -/
structure Descends (fresh b : Board) : Prop where
  made : ofNumber? b.number b.banks = some fresh
  size : ∀ ram ∈ b.ram?, ram.size = ramSize
  programmed : b.IsProgrammed

theorem Descends.ofNumber? {number : UInt8} {counts : BankCounts} {fresh : Board}
    (made : Board.ofNumber? number counts = some fresh) : Descends fresh fresh := by
  unfold Board.ofNumber? at made
  split at made <;> cases made
  · exact ⟨rfl, nofun, trivial⟩
  · exact ⟨rfl, fun ram present => Option.some.inj present ▸ Cartridge.size_blankRam, trivial⟩
  · exact ⟨rfl, nofun, trivial⟩
  · exact ⟨rfl, nofun, trivial⟩
  · exact ⟨rfl, fun ram present => Option.some.inj present ▸ Cartridge.size_blankRam, trivial⟩
  · exact ⟨rfl, fun ram present => Option.some.inj present ▸ Cartridge.size_blankRam,
      .powerOn counts⟩

theorem Descends.apply {fresh b : Board} (h : Descends fresh b) (op : Operation) :
    Descends fresh (b.apply op) := by
  refine ⟨?_, ?_, h.programmed.apply op⟩
  · rw [number_apply, banks_apply]
    exact h.made
  · intro ram present
    rw [ram?_apply] at present
    obtain ⟨before, had, rfl⟩ := Option.map_eq_some_iff.mp present
    exact (size_onRam op before).trans (h.size before had)

/-- New RAM that is given the bytes of old RAM becomes it. -/
theorem Descends.load_ram {fresh b : Board} (h : Descends fresh b) {ram : Block}
    (present : b.ram? = some ram) : blankRam.load ram.bytes = ram :=
  Block.load_of_size_eq ((h.size ram present).trans Cartridge.size_blankRam.symm)

/-- Each register of an MMC2 board has a page of its own. -/
theorem foldl_kept_mmc2 (b : Mmc2) (banks : BankCounts) (ram : Block) :
    (kept (.mmc2 b)).foldl apply (.mmc2 { banks, ram }) =
      .mmc2
        { banks
          ram := ram.load b.ram.bytes
          lower := { fd := b.lower.fd &&& 0x1F, fe := b.lower.fe &&& 0x1F }
          upper := { fd := b.upper.fd &&& 0x1F, fe := b.upper.fe &&& 0x1F }
          nametables := .ofSwitch (switchTo b.nametables) } :=
  rfl

/-- After a reset a board is like a new one that was given what the reset kept. -/
theorem Descends.reset_alike {fresh b : Board} (h : Descends fresh b) :
    Alike b.reset (b.kept.foldl Board.apply fresh) := by
  have made := h.made
  cases b with
  | nrom b | uxrom b | cnrom b =>
    cases made
    exact .refl _
  | mmc1 b =>
    obtain rfl : .mmc1 (.initial b.banks) = fresh := Option.some.inj made
    -- Both find the windows in use, the one over those of the run and the other over none.
    have found := Alike.updateWindows
      { banks := b.banks, ram := b.ram, serialGate := b.serialGate, windows := b.windows } {}
    have given : (kept (.mmc1 b)).foldl Board.apply (.mmc1 (.initial b.banks)) =
        .mmc1 { Mmc1.initial b.banks with
          ram := blankRam.load b.ram.bytes
          serialGate := b.serialGate } :=
      rfl
    rw [given, h.load_ram rfl]
    exact found
  | mmc3 b =>
    obtain rfl : .mmc3 (.initial b.banks) = fresh := Option.some.inj made
    have given : (kept (.mmc3 b)).foldl Board.apply (.mmc3 (.initial b.banks)) =
        .mmc3 { Mmc3.initial b.banks with ram := blankRam.load b.ram.bytes } :=
      rfl
    rw [given, h.load_ram rfl]
    exact .refl _
  | mmc2 b =>
    obtain rfl : .mmc2 { banks := b.banks } = fresh := Option.some.inj made
    obtain ⟨lower, upper, nametables⟩ : b.IsProgrammed := h.programmed
    rw [foldl_kept_mmc2, h.load_ram rfl, lower.fd, lower.fe, upper.fd, upper.fe, nametables]
    exact .refl _

/-- A reset makes the products of power-on again. -/
theorem Descends.powerOnProducts {fresh b : Board} (h : Descends fresh b) :
    b.powerOnProducts = fresh.powerOnProducts := by
  have made := h.made
  cases b <;> cases made <;> rfl

theorem powerOn_eq_ok_some {number : UInt8} {counts : BankCounts} {fresh : Board}
    (made : powerOn number counts = .ok (some fresh)) :
    ofNumber? number counts = some fresh ∧ ∀ p ∈ fresh.powerOnProducts, p < Checked.words64 := by
  unfold powerOn at made
  cases supported : ofNumber? number counts with
  | none => simp [supported] at made
  | some b =>
    simp only [supported, Checked.afterProducts] at made
    split at made
    · rename_i small
      obtain rfl : b = fresh := by simpa using made
      exact ⟨rfl, small⟩
    · cases made

/-- **A reset is a power-on.** A board that is reset, whatever was done to it before and is done to
it afterwards, shows what a new board of its kind and memory shows that was given the same RAM and
the same setting of the gate, and on an MMC2 board the same pattern banks and name tables. The reset
is never refused. -/
theorem reset_view_eq {number : UInt8} {counts : BankCounts} {fresh : Board}
    (made : powerOn number counts = .ok (some fresh)) (history continuation : List Operation) :
    let b := history.foldl apply fresh
    b.resetChecked = .ok b.reset ∧
      (continuation.foldl apply b.reset).view =
        (continuation.foldl apply (b.kept.foldl apply fresh)).view := by
  intro b
  obtain ⟨supported, small⟩ := powerOn_eq_ok_some made
  have descends : Descends fresh b :=
    List.foldlRecOn history apply (motive := Descends fresh) (.ofNumber? supported)
      fun _ kept op _ => kept.apply op
  refine ⟨?_, (descends.reset_alike.foldl continuation).view_eq⟩
  exact Checked.afterProducts_of_lt _ (descends.powerOnProducts ▸ small)

/-- The writes that put a value into a register of an MMC1 board. -/
def serialWrites (address : UInt16) (value : UInt8) : List Operation :=
  ([0, 1, 2, 3, 4] : List UInt8).map fun place => .cpuWrite address (value >>> place) 0

/-- The windows of an MMC1 board. -/
def windows? : Board → Option Mmc1.Windows
  | .mmc1 b => some b.windows
  | _ => none

/-- A history after which a reset leaves banks in both windows that are then out of use. -/
theorem reset_view_eq_of_outOfDate :
    let counts : BankCounts := ⟨4, 2, by decide⟩
    let history := serialWrites 0x8000 0 ++ serialWrites 0xA000 2 ++ serialWrites 0xE000 2
    ∃ fresh, powerOn 1 counts = .ok (some fresh) ∧
      (history.foldl apply fresh).reset.windows? = some ⟨0, 0, 1, 0, 3, 1⟩ ∧
      fresh.windows? = some ⟨0, 0, 0, 0, 3, 0⟩ ∧
      ∀ continuation : List Operation,
        (continuation.foldl apply (history.foldl apply fresh).reset).view =
          (continuation.foldl apply ((history.foldl apply fresh).kept.foldl apply fresh)).view := by
  intro counts history
  have made : powerOn 1 counts = .ok (some (.mmc1 (.initial counts))) := rfl
  refine ⟨_, made, by decide, by decide, ?_⟩
  intro continuation
  exact (reset_view_eq made history continuation).2

end Famicom.Board
