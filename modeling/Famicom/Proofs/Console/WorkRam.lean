import Famicom.Bench.RegisterPicture
import Famicom.Bench.ScriptedProcessor
import Famicom.Proofs.Console.AccessPath
import Famicom.Storage.Disk

/-!
# Work RAM

Work RAM is seen four times at the bottom of the bus. No cartridge takes an access there, so what
the RAM holds is told by the writes of the past: the last one at any address that shares its low
eleven bits.

## Main definitions

* `BusAccess.ramWrite?` — an access is a write to work RAM
* `lastRamByte` — what the past has left at an address, newest access first
* `Devices.RamRemembers` — the RAM is as the past tells

## Main results

* `Devices.ram_write`, `Devices.ram_read` — what an access does to the RAM
* `BusPath.eq_lastRamByte` — every read on a path gives what its past tells
* `Machine.work_ram_is_last_write` — so does every read of a run
-/

namespace Famicom

/-- The first address above work RAM. -/
def ramEnd : UInt16 :=
  0x2000

/-- The address and byte of a write to work RAM. -/
def BusAccess.ramWrite? : BusAccess → Option (UInt16 × UInt8)
  | .write address data => if address < ramEnd then some (address, data) else none
  | .read _ _ _ | .startCopy _ _ => none

/-- Two addresses share their low eleven bits. -/
def SameCell (a b : UInt16) : Prop :=
  a &&& 0x07FF = b &&& 0x07FF

instance (a b : UInt16) : Decidable (SameCell a b) :=
  inferInstanceAs (Decidable (_ = _))

/-- The byte of the last write to work RAM that shares the low bits of an address, newest access
first. At power-on there are zeros. -/
def lastRamByte (address : UInt16) : List BusAccess → UInt8
  | [] => 0
  | access :: past =>
    match access.ramWrite? with
    | some (written, data) => if SameCell written address then data else lastRamByte address past
    | none => lastRamByte address past

theorem sameCell_iff (a b : UInt16) :
    SameCell a b ↔ a.toNat % workRamSize = b.toNat % workRamSize := by
  have low (c : UInt16) : (c &&& 0x07FF).toNat = c.toNat % workRamSize := by
    rw [UInt16.toNat_and]
    exact Nat.and_two_pow_sub_one_eq_mod c.toNat 11
  rw [SameCell, ← UInt16.toNat_inj, low, low]

/-- The RAM after an access. -/
def Block.afterAccess (ram : Block) (access : BusAccess) : Block :=
  match access.ramWrite? with
  | some (address, data) => ram.write address.toNat data
  | none => ram

theorem Block.afterAccess_of_none {ram : Block} {access : BusAccess}
    (other : access.ramWrite? = none) : ram.afterAccess access = ram := by
  rw [afterAccess, other]

/-! ### Accesses -/

namespace Devices

variable {π δ : Type} [PictureUnit π] (d : Devices π δ)

/-- No read changes the RAM. -/
@[simp] theorem ram_read (address : UInt16) (peek : Bool) :
    (d.read address peek).2.ram = d.ram := by
  obtain ⟨_, _, _, reads⟩ := d.exists_read address peek
  rw [reads]

/-- A read at the bottom of the bus gives what the RAM holds. -/
theorem read_of_lt_ramEnd {address : UInt16} (low : address < ramEnd) (peek : Bool) :
    (d.read address peek).1 = d.ram.read address.toNat := by
  have below : address < cartridgeStart := by
    unfold ramEnd at low
    unfold cartridgeStart
    grind
  have bottom : address < 0x2000 := low
  rw [d.read_eq_readConsole peek below]
  unfold readConsole
  rw [if_pos bottom]

variable [FileStore δ]

theorem ram_write_of_le {address : UInt16} (data : UInt8) (high : ramEnd ≤ address) :
    (d.write address data).ram = d.ram := by
  have above : ¬ address < 0x2000 := UInt16.not_lt.mpr high
  by_cases below : address < cartridgeStart
  · rw [d.write_eq_writeConsole data below, writeConsole, if_neg above]
    split
    · obtain ⟨_, _, writes⟩ := d.exists_writePicture (address &&& 0x0007) data
      rw [writes]
    · split
      · exact d.ram_read 0x2003 false
      · split
        · rfl
        · split <;> rfl
  · obtain ⟨_, _, writes⟩ := d.exists_write_of_le data (UInt16.not_lt.mp below)
    rw [writes]

/-- A write changes the RAM at the bottom of the bus only. -/
theorem ram_write (address : UInt16) (data : UInt8) :
    (d.write address data).ram = d.ram.afterAccess (d.writeAccess address data) := by
  by_cases low : address < ramEnd
  · have below : address < cartridgeStart := by
      unfold ramEnd at low
      unfold cartridgeStart
      grind
    have other : address ≠ copierRegister := by
      unfold ramEnd at low
      unfold copierRegister
      grind
    have bottom : address < 0x2000 := low
    rw [d.write_eq_writeConsole data below, writeConsole, if_pos bottom, writeAccess,
      if_neg other, Block.afterAccess, BusAccess.ramWrite?, if_pos low]
  · have untouched : (d.writeAccess address data).ramWrite? = none := by
      unfold writeAccess
      split
      · rfl
      · exact if_neg low
    rw [Block.afterAccess_of_none untouched]
    exact d.ram_write_of_le data (UInt16.not_lt.mp low)

/-- The RAM is as the past tells. -/
structure RamRemembers {π δ : Type} (d : Devices π δ) (past : List BusAccess) : Prop where
  size : d.ram.size = workRamSize
  holds : ∀ address : UInt16, d.ram.read address.toNat = lastRamByte address past

end Devices

namespace Devices.RamRemembers

theorem new {π δ : Type} (picture : π) (sound : Audio.Synthesizer) (store : δ) :
    ({ picture, sound, store } : Devices π δ).RamRemembers [] :=
  ⟨Block.size_zeros workRamSize (by decide), fun address =>
    (Block.read_eq_byteAt _ _).trans (byteAt_zeroBytes workRamSize _)⟩

variable {π δ : Type} {d d' : Devices π δ} {past : List BusAccess}

/-- The RAM remembers an access. -/
theorem after (h : d.RamRemembers past) {access : BusAccess}
    (made : d'.ram = d.ram.afterAccess access) : d'.RamRemembers (access :: past) := by
  unfold Block.afterAccess at made
  constructor
  · rw [made]
    split
    · exact (Block.size_write ..).trans h.size
    · exact h.size
  · intro address
    rw [made, lastRamByte]
    split
    · rename_i written data found
      rw [Block.read_write, h.size, h.holds address]
      simp only [sameCell_iff]
    · exact h.holds address

theorem of_same (h : d.RamRemembers past) (same : d'.ram = d.ram) : d'.RamRemembers past :=
  ⟨same ▸ h.size, fun address => same ▸ h.holds address⟩

variable [PictureUnit π]

theorem read (h : d.RamRemembers past) (address : UInt16) (peek : Bool) :
    (d.read address peek).2.RamRemembers
      (.read address peek (d.read address peek).1 :: past) :=
  h.after (d.ram_read address peek)

theorem write [FileStore δ] (h : d.RamRemembers past) (address : UInt16) (data : UInt8) :
    (d.write address data).RamRemembers (d.writeAccess address data :: past) :=
  h.after (d.ram_write address data)

/-- A read at the bottom of the bus gives what the past tells. -/
theorem read_eq (h : d.RamRemembers past) {address : UInt16} (low : address < ramEnd)
    (peek : Bool) : (d.read address peek).1 = lastRamByte address past :=
  (d.read_of_lt_ramEnd low peek).trans (h.holds address)

end Devices.RamRemembers

/-! ### Paths -/

namespace BusPath

variable {π δ : Type} [PictureUnit π] [FileStore δ] {d d' : Devices π δ}
  {log past : List BusAccess}

/-- The RAM remembers a path. -/
theorem ramRemembers (h : BusPath d log d') (known : d.RamRemembers past) :
    d'.RamRemembers (log.reverse ++ past) := by
  induction h generalizing past with
  | nil d => exact known
  | read address peek rest ih =>
    rw [List.reverse_cons, List.append_assoc]
    exact ih (known.read address peek)
  | write address data rest ih =>
    rw [List.reverse_cons, List.append_assoc]
    exact ih (known.write address data)
  | besides same rest ih => exact ih (known.of_same same)

/-- A path without writes to work RAM leaves it as it is. -/
theorem ram_eq (h : BusPath d log d') (quiet : ∀ access ∈ log, access.ramWrite? = none) :
    d'.ram = d.ram := by
  induction h with
  | nil d => rfl
  | read address peek rest ih =>
    rw [ih fun access member => quiet access (List.mem_cons_of_mem _ member), Devices.ram_read]
  | write address data rest ih =>
    rw [ih fun access member => quiet access (List.mem_cons_of_mem _ member), Devices.ram_write,
      Block.afterAccess_of_none (quiet _ List.mem_cons_self)]
  | besides same rest ih => exact (ih quiet).trans same

/-- Every read on a path at the bottom of the bus gives what its past tells. -/
theorem eq_lastRamByte (h : BusPath d log d') (known : d.RamRemembers past)
    {before later : List BusAccess} {address : UInt16} {peek : Bool} {byte : UInt8}
    (told : log = before ++ .read address peek byte :: later) (low : address < ramEnd) :
    byte = lastRamByte address (before.reverse ++ past) := by
  induction h generalizing past before with
  | nil d => exact absurd told (by simp)
  | read address' peek' rest ih =>
    cases before with
    | nil =>
      obtain ⟨same, -⟩ := List.cons.inj told
      obtain ⟨rfl, rfl, rfl⟩ := BusAccess.read.inj same
      exact known.read_eq low peek'
    | cons first before =>
      obtain ⟨rfl, tail⟩ := List.cons.inj told
      rw [List.reverse_cons, List.append_assoc]
      exact ih (known.read address' peek') tail
  | write address' data rest ih =>
    cases before with
    | nil =>
      -- A write is not told as a read.
      obtain ⟨same, -⟩ := List.cons.inj told
      unfold Devices.writeAccess at same
      split at same <;> cases same
    | cons first before =>
      obtain ⟨rfl, tail⟩ := List.cons.inj told
      rw [List.reverse_cons, List.append_assoc]
      exact ih (known.write address' data) tail
  | besides same rest ih => exact ih (known.of_same same) told

end BusPath

/-! ### Runs -/

theorem Cartridge.cpuRead_eq_none (c : Cartridge) {address : UInt16}
    (below : address < cartridgeStart) : c.cpuRead address = none := by
  simp [cpuRead, c.board.cpuRead_eq_none below]

theorem Cartridge.cpuWrite_eq {δ : Type} [FileStore δ] (c : Cartridge) {address : UInt16}
    (below : address < cartridgeStart) (data : UInt8) (step : UInt64) (store : δ) :
    c.cpuWrite address data step store = (false, c, store) := by
  simp [cpuWrite, c.board.cpuWrite_eq_none data step below]

namespace Machine

variable {κ π δ : Type} [Processor κ] [PictureUnit π] [FileStore δ]

omit [Processor κ] [PictureUnit π] [FileStore δ] in
/-- The RAM of a new console remembers nothing. -/
theorem ramRemembers_initial {processor : κ} {picture : π} {store : δ} {settings : Settings}
    {start : Machine κ π δ} (made : initial processor picture store settings = .ok start) :
    start.devices.RamRemembers [] := by
  obtain ⟨sound, -, rest⟩ := bind_eq_ok.mp made
  obtain rfl := Except.ok.inj rest
  exact Devices.RamRemembers.new _ _ _

/-- **Work RAM is what was last written to it.** Whatever is done to a console since it was made, a
read at the bottom of the bus gives the byte of the last write there that shares the low eleven bits
of its address, or zero if there was none. This is so for every read in the run, on whose behalf it
may be made and even if the run fails later, and for one from outside after the run. No cartridge
takes an access below its own addresses, and a call that makes no write at the bottom of the bus
leaves the RAM as it is. -/
theorem work_ram_is_last_write {processor : κ} {picture : π} {store : δ} {settings : Settings}
    {start : Machine κ π δ} (made : initial processor picture store settings = .ok start)
    (calls : List (Call κ π δ)) :
    (∀ past later address peek byte, address < ramEnd →
      start.accessLog calls = past ++ .read address peek byte :: later →
        byte = lastRamByte address past.reverse) ∧
    (∀ m, calls.foldlM call start = .ok m →
      (∀ address peek, address < ramEnd →
        (m.read address peek).1 = lastRamByte address (start.accessLog calls).reverse) ∧
      ∀ c m', m.call c = .ok m' →
        (∀ access ∈ m.accessesIn c, access.ramWrite? = none) → m'.devices.ram = m.devices.ram) ∧
    ∀ (c : Cartridge) (address : UInt16), address < cartridgeStart →
      c.cpuRead address = none ∧
      ∀ data step (store : δ), c.cpuWrite address data step store = (false, c, store) := by
  obtain ⟨d, path, ends⟩ := start.follows_run calls
  have fresh := ramRemembers_initial made
  refine ⟨?every, fun m ran => ⟨?after, ?still⟩, ?declined⟩
  case every =>
    intro past later address peek byte low told
    have told := path.eq_lastRamByte fresh told low
    rwa [List.append_nil] at told
  case after =>
    intro address peek low
    have known := (path.ramRemembers fresh).of_same (ends m ran)
    rw [List.append_nil] at known
    exact known.read_eq low peek
  case still =>
    intro c m' called quiet
    obtain ⟨d', further, ends'⟩ := m.follows_call c
    rw [ends' m' called, further.ram_eq quiet]
  case declined =>
    intro c address below
    exact ⟨c.cpuRead_eq_none below, fun data step store => c.cpuWrite_eq below data step store⟩

/-- A byte is read at another address that shares its low bits, after one that does not was written
and the console was reset. -/
theorem work_ram_is_last_write_of_mirror :
    let calls : List (Call Bench.ScriptedProcessor Bench.RegisterPicture Disk) :=
      [.once (.write 0x0801 0x5A), .once (.write 0x0802 0xA5), .once .reset,
        .once (.read 0x1001 false)]
    ∃ start m m', initial {} {} {} {} = .ok start ∧ calls.foldlM call start = .ok m ∧
      start.accessLog calls =
        [.write 0x0801 0x5A, .write 0x0802 0xA5] ++ .read 0x1001 false 0x5A :: [] ∧
      0x5A = lastRamByte 0x1001 [.write 0x0802 0xA5, .write 0x0801 0x5A] ∧
      (m.read 0x0001 true).1 = 0x5A ∧
      m.call (.once (.press 0 0xFF)) = .ok m' ∧ m'.devices.ram = m.devices.ram ∧
      (Cartridge.cpuRead · 0x5FFF) = fun _ => none := by
  intro calls
  obtain ⟨start, made, m, ran, byte, log, m', pressed, quiet⟩ :
      ∃ start : Machine Bench.ScriptedProcessor Bench.RegisterPicture Disk,
        initial {} {} {} {} = .ok start ∧ ∃ m, calls.foldlM call start = .ok m ∧
          ∃ byte, start.accessLog calls =
            [.write 0x0801 0x5A, .write 0x0802 0xA5] ++ .read 0x1001 false byte :: [] ∧
          ∃ m', m.call (.once (.press 0 0xFF)) = .ok m' ∧
            m.accessesIn (.once (.press 0 0xFF)) = [] :=
    ⟨_, rfl, _, rfl, _, rfl, _, rfl, rfl⟩
  obtain ⟨every, after, declined⟩ := work_ram_is_last_write made calls
  obtain ⟨next, still⟩ := after m ran
  have mirrored := next 0x0001 true (by decide)
  rw [log] at mirrored
  -- The RAM itself is not evaluated: the past tells what was read.
  obtain rfl : byte = 0x5A := every _ _ _ _ _ (by decide) log
  refine ⟨start, m, m', made, ran, log, rfl, mirrored, pressed, still _ m' pressed ?_,
    funext fun c => (declined c 0x5FFF (by decide)).1⟩
  rw [quiet]
  exact nofun

end Machine

end Famicom
