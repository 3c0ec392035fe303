import Mathlib.Data.List.Induction
import Famicom.Proofs.Cartridge.Opening
import Famicom.Proofs.Cartridge.Saving
import Famicom.Proofs.Storage.Files

/-!
# RAM with a battery

As long as every access to the save succeeds, the RAM of a cartridge with a battery outlives
sessions: each byte is the last one written there in this or any earlier session, or what the first
save brought. The save holds all of RAM right after every write to it, so it does not matter how a
session ends.

What carries this through sessions is that the RAM of a cartridge is at any time what its save would
bring back.

## Main definitions

* `Cartridge.lastWritten?` — the last byte that operations put at a place in RAM
* `Cartridge.session` — a cartridge is opened and used
* `Cartridge.IsSaved` — the save would bring RAM back

## Main results

* `Cartridge.IsSaved.apply` — an operation keeps RAM saved
* `Cartridge.batteryRam_survives` — RAM after any number of sessions
-/

namespace Famicom

open Board (ramPlace? ramSize blankRam)

/-! ### Writes to RAM -/

namespace Board

theorem size_onRam (op : Operation) (ram : Block) : (op.onRam ram).size = ram.size := by
  cases op with
  | cpuWrite address data step =>
    simp only [Operation.onRam]
    cases ramPlace? address with
    | none => rfl
    | some place => exact Block.size_write ..
  | loadRam image => exact Block.size_load ..
  | _ => rfl

end Board

namespace Cartridge

theorem Operation.ramWrite?_lt {op : Operation} {write : Nat × UInt8}
    (writes : op.ramWrite? = some write) : write.1 < 0x2000 := by
  cases op with
  | cpuWrite address data step =>
    obtain ⟨place, reached, rfl⟩ := Option.map_eq_some_iff.mp writes
    exact Board.ramPlace?_lt reached
  | cpuRead _ | patternRead _ | patternWrite _ _ | scanline | clearIrq | reset | setGate _ =>
    simp only [ramWrite?, reduceCtorEq] at writes

/-- The byte that an operation puts at a place in RAM. -/
def Operation.puts? (op : Operation) (place : Nat) : Option UInt8 :=
  op.ramWrite?.bind fun write => if write.1 = place then some write.2 else none

/-- The last byte that operations put at a place in RAM. -/
def lastWritten? (ops : List Operation) (place : Nat) : Option UInt8 :=
  ops.reverse.findSome? (·.puts? place)

theorem lastWritten?_append_singleton (ops : List Operation) (op : Operation) (place : Nat) :
    lastWritten? (ops ++ [op]) place = (op.puts? place).or (lastWritten? ops place) := by
  unfold lastWritten?
  rw [List.reverse_append, List.reverse_singleton, List.singleton_append, List.findSome?_cons]
  cases op.puts? place <;> rfl

/-- Writes go to the first 8 KiB. -/
theorem lastWritten?_of_le (ops : List Operation) {place : Nat} (beyond : 0x2000 ≤ place) :
    lastWritten? ops place = none := by
  apply List.findSome?_eq_none_iff.mpr
  intro op _
  rw [Operation.puts?, Option.bind_eq_none_iff]
  intro write writes
  have := Operation.ramWrite?_lt writes
  rw [if_neg (by omega)]

/-- RAM after operations. -/
def ramAfter (ram : Block) (ops : List Operation) : Block :=
  ops.foldl (fun ram op => op.onBoard.onRam ram) ram

theorem ramAfter_append (ram : Block) (ops more : List Operation) :
    ramAfter ram (ops ++ more) = ramAfter (ramAfter ram ops) more :=
  List.foldl_append

theorem size_ramAfter (ram : Block) (ops : List Operation) : (ramAfter ram ops).size = ram.size :=
  List.foldlRecOn ops _ (motive := fun after : Block => after.size = ram.size) rfl
    fun after kept op _ => (Board.size_onRam op.onBoard after).trans kept

/-- A write changes the place that it goes to, and no other. -/
theorem read_onRam {ram : Block} (size : ram.size = ramSize) (op : Operation) {place : Nat}
    (inside : place < ramSize) :
    (op.onBoard.onRam ram).read place = (op.puts? place).getD (ram.read place) := by
  rw [op.onRam_onBoard, Operation.puts?]
  cases writes : op.ramWrite? with
  | none => rfl
  | some write =>
    obtain ⟨target, byte⟩ := write
    have room : target < ram.size := by
      have := Operation.ramWrite?_lt writes
      rw [size, ramSize]
      omega
    have inside' : place < ram.size := size.symm ▸ inside
    dsimp only [Option.elim, Option.bind]
    rw [Block.read_write, Nat.mod_eq_of_lt room, Nat.mod_eq_of_lt inside']
    split_ifs <;> rfl

/-- Every place holds the last byte that was written there. -/
theorem read_ramAfter {ram : Block} (size : ram.size = ramSize) (ops : List Operation)
    {place : Nat} (inside : place < ramSize) :
    (ramAfter ram ops).read place = (lastWritten? ops place).getD (ram.read place) := by
  induction ops using List.reverseRecOn with
  | nil => rfl
  | append_singleton ops op ih =>
    have last : ramAfter ram (ops ++ [op]) = op.onBoard.onRam (ramAfter ram ops) :=
      ramAfter_append ram ops [op]
    rw [last, read_onRam ((size_ramAfter ram ops).trans size) op inside, ih,
      lastWritten?_append_singleton]
    cases op.puts? place <;> rfl

theorem size_blankRam : blankRam.size = ramSize :=
  Block.size_zeros ..

theorem size_savedRam (image : ByteArray) : (blankRam.load image).size = ramSize :=
  (Block.size_load ..).trans size_blankRam

/-- RAM that an image was loaded into, after operations. -/
theorem read_ramAfter_load (image : ByteArray) (ops : List Operation) {place : Nat}
    (inside : place < ramSize) :
    (ramAfter (blankRam.load image) ops).read place =
      (lastWritten? ops place).getD (byteAt image place) := by
  have brought : (blankRam.load image).read place = byteAt image place :=
    Block.read_load_zeros _ image inside
  rw [read_ramAfter (size_savedRam image) ops inside, brought]

/-! ### Saves -/

section Sessions

variable {δ : Type} [FileStore δ] {Good : δ → Prop} {path save : String}
  {directory : Option String}

/-- A cartridge with a battery is attached to its save, which would bring its RAM back. -/
structure IsSaved (Good : δ → Prop) (save : String) (s : Cartridge × δ) : Prop where
  good : Good s.2
  battery : s.1.header.hasBattery = true
  attached : s.1.persistence = .file save
  ram : s.1.board.ram? = some (blankRam.load (FileStore.kept s.2 save))

theorem IsSaved.saves {s : Cartridge × δ} (saved : IsSaved Good save s) (op : Operation) :
    s.1.saves op = op.ramWrite?.isSome := by
  rw [Cartridge.saves, saved.battery, Bool.and_true]

/-- A write to RAM leaves the save with all of RAM. -/
theorem IsSaved.apply_of_writes (reliable : FileStore.IsReliable Good save) {s : Cartridge × δ}
    (saved : IsSaved Good save s) {op : Operation} (writes : op.ramWrite?.isSome = true) :
    ∃ ram, (Cartridge.apply s op).1.board.ram? = some ram ∧ ram.size = ramSize ∧
      (Cartridge.apply s op).1.persistence = .file save ∧
      (Cartridge.apply s op).2 = (FileStore.write s.2 save ram.bytes).2 := by
  have attached : (s.1.change op).persistence = .file save := saved.attached
  have present : (s.1.change op).board.ram? =
      some (op.onBoard.onRam (blankRam.load (FileStore.kept s.2 save))) := by
    rw [ram?_change, saved.ram, Option.map_some]
  have written : Cartridge.apply s op = (s.1.change op).persist s.2 := by
    rw [apply_eq, saved.saves, if_pos writes]
  rw [persist_of_file attached present, reliable.accepts _ saved.good] at written
  rw [written]
  exact ⟨_, present, (Board.size_onRam op.onBoard _).trans (size_savedRam _), rfl, rfl⟩

/-- An operation that does not write RAM touches no file. -/
theorem apply_of_ramWrite?_eq_none (s : Cartridge × δ) {op : Operation}
    (reads : op.ramWrite? = none) : apply s op = (s.1.change op, s.2) := by
  rw [apply_eq, saves, reads]
  rfl

/-- An operation keeps RAM saved. -/
theorem IsSaved.apply (reliable : FileStore.IsReliable Good save) {s : Cartridge × δ}
    (saved : IsSaved Good save s) (op : Operation) : IsSaved Good save (Cartridge.apply s op) := by
  cases writes : op.ramWrite? with
  | none =>
    rw [apply_of_ramWrite?_eq_none s writes]
    refine ⟨saved.good, saved.battery, saved.attached, ?_⟩
    rw [ram?_change, saved.ram, Option.map_some, op.onRam_onBoard, writes, Option.elim_none]
  | some write =>
    obtain ⟨ram, present, size, attached, after⟩ :=
      saved.apply_of_writes reliable (Option.isSome_of_eq_some writes)
    refine ⟨?_, ?_, attached, ?_⟩
    · rw [after]
      exact reliable.good_write _ saved.good
    · rw [header_apply]
      exact saved.battery
    · -- RAM has the size that it is saved in, so the save brings back nothing but RAM.
      rw [present, after, reliable.kept_write saved.good,
        Block.load_of_size_eq (size.trans size_blankRam.symm)]

theorem IsSaved.run (reliable : FileStore.IsReliable Good save) {s : Cartridge × δ}
    (saved : IsSaved Good save s) (ops : List Operation) :
    IsSaved Good save (ops.foldl Cartridge.apply s) :=
  List.foldlRecOn ops Cartridge.apply (motive := fun s => IsSaved Good save s) saved
    fun _ saved op _ => saved.apply reliable op

theorem ram?_run (s : Cartridge × δ) (ops : List Operation) :
    (ops.foldl apply s).1.board.ram? = s.1.board.ram?.map fun ram => ramAfter ram ops := by
  induction ops generalizing s with
  | nil => exact Option.map_id'.symm
  | cons op ops ih =>
    rw [List.foldl_cons, ih, ram?_apply, Option.map_map]
    rfl

/-- A save that can be relied on is loaded, or begun if there is none. -/
theorem attachSave_of_isReliable (reliable : FileStore.IsReliable Good save) {store : δ}
    (good : Good store) {c : Cartridge} {ram : Block} (present : c.board.ram? = some ram) :
    (c.attachSave save store).header = c.header ∧
      (c.attachSave save store).persistence = .file save ∧
      (c.attachSave save store).board.ram? = some (ram.load (FileStore.kept store save)) := by
  have some_ram : c.board.ram?.isNone = false := by rw [present, Option.isNone_some]
  unfold attachSave FileStore.kept
  rw [some_ram]
  cases there : FileStore.contains store save with
  | false => exact ⟨rfl, rfl, by rw [Block.load_empty]; exact present⟩
  | true =>
    obtain ⟨image, found⟩ := reliable.readable good there
    have loaded := c.board.ram?_apply (.loadRam image)
    rw [present] at loaded
    rw [found]
    exact ⟨rfl, rfl, loaded⟩

/-- Opening brings RAM back from the save. -/
theorem IsSaved.openFile (reliable : FileStore.IsReliable Good (Persistence.pathFor path directory))
    {store : δ} (good : Good store) {image : ByteArray}
    (there : FileStore.read store path = .ok image) {blank : Cartridge}
    (loaded : ofImage image = .ok blank) (battery : blank.header.hasBattery = true)
    (has_ram : blank.board.ram?.isSome = true) :
    ∃ c, Cartridge.openFile path directory store = .ok c ∧
      IsSaved Good (Persistence.pathFor path directory) (c, store) := by
  obtain ⟨ram, present⟩ := Option.isSome_iff_exists.mp has_ram
  obtain rfl := ram?_of_ofImage loaded present
  obtain ⟨header, attached, brought⟩ := attachSave_of_isReliable reliable good present
  refine ⟨_, openFile_eq_ok_iff.mpr ⟨image, blank, there, loaded, rfl⟩, ?_⟩
  rw [if_pos battery]
  exact ⟨good, header.symm ▸ battery, attached, brought⟩

/-! ### Sessions -/

/-- The files after a session, in which an image is opened and something is done to its
cartridge. -/
def session (path : String) (directory : Option String) (store : δ) (ops : List Operation) :
    Except OpenError δ := do
  let c ← Cartridge.openFile path directory store
  pure (ops.foldl Cartridge.apply (c, store)).2

/-- A run of a saved cartridge does to what the save would bring back what it does to RAM. -/
theorem IsSaved.load_kept_run (reliable : FileStore.IsReliable Good save) {s : Cartridge × δ}
    (saved : IsSaved Good save s) (ops : List Operation) :
    blankRam.load (FileStore.kept (ops.foldl Cartridge.apply s).2 save) =
      ramAfter (blankRam.load (FileStore.kept s.2 save)) ops := by
  have after := ram?_run s ops
  rw [saved.ram, (saved.run reliable ops).ram] at after
  exact Option.some.inj after

/-- After any number of sessions the save brings back what all their operations make of what it
brought at first. -/
theorem exists_sessions (reliable : FileStore.IsReliable Good save)
    (opens : ∀ store, Good store →
      ∃ c, Cartridge.openFile path directory store = .ok c ∧ IsSaved Good save (c, store))
    {start : δ} (good : Good start) (past : List (List Operation)) :
    ∃ store, past.foldlM (session path directory) start = .ok store ∧ Good store ∧
      blankRam.load (FileStore.kept store save) =
        ramAfter (blankRam.load (FileStore.kept start save)) past.flatten := by
  -- A session ends in a good state, and the next starts from what its save would bring back.
  induction past generalizing start with
  | nil => exact ⟨start, rfl, good, rfl⟩
  | cons ops past ih =>
    obtain ⟨c, opened, saved⟩ := opens start good
    have later := saved.run reliable ops
    obtain ⟨store, sessions, good_store, kept⟩ := ih later.good
    refine ⟨store, ?_, good_store, ?_⟩
    · refine foldlM_cons_eq_ok.mpr ⟨_, ?_, sessions⟩
      exact bind_eq_ok.mpr ⟨c, opened, rfl⟩
    · rw [kept, saved.load_kept_run reliable, List.flatten_cons, ramAfter_append]

/-- **Battery RAM survives sessions.** If every access to the save succeeds and writes to it leave
the image alone, then an image with a battery and RAM can be opened after any number of sessions,
and at any moment of the next one every place in RAM holds the last byte that was written there in
any session, or else what the first save held. Reads find these bytes. No write reaches the last
24 KiB. A write to RAM leaves the save with all of RAM, any other operation touches no file, and
opening again at that moment brings back the same RAM. -/
theorem batteryRam_survives
    (reliable : FileStore.IsReliable Good (Persistence.pathFor path directory))
    (apart : FileStore.LeavesAlone Good (Persistence.pathFor path directory) path)
    {start : δ} (good : Good start) {image : ByteArray}
    (there : FileStore.read start path = .ok image) {blank : Cartridge}
    (loaded : ofImage image = .ok blank) (battery : blank.header.hasBattery = true)
    (has_ram : blank.board.ram?.isSome = true) (past : List (List Operation))
    (ops : List Operation) :
    let save := Persistence.pathFor path directory
    let held := fun place =>
      (lastWritten? (past.flatten ++ ops) place).getD (byteAt (FileStore.kept start save) place)
    ∃ store opened, past.foldlM (session path directory) start = .ok store ∧
      Cartridge.openFile path directory store = .ok opened ∧
      let s := ops.foldl Cartridge.apply (opened, store)
      (∃ ram, s.1.board.ram? = some ram ∧ ram.size = ramSize ∧
        ∀ place < ramSize, ram.read place = held place) ∧
      (∀ address place, ramPlace? address = some place →
        s.1.cpuRead address = some (held place)) ∧
      (∀ place, 0x2000 ≤ place → held place = byteAt (FileStore.kept start save) place) ∧
      (∀ op : Operation, op.ramWrite?.isSome = true →
        ∃ ram, (Cartridge.apply s op).1.board.ram? = some ram ∧ ram.size = ramSize ∧
          FileStore.read (Cartridge.apply s op).2 save = .ok ram.bytes) ∧
      (∀ op : Operation, op.ramWrite? = none → (Cartridge.apply s op).2 = s.2) ∧
      ∃ next, Cartridge.openFile path directory s.2 = .ok next ∧
        next.board.ram? = s.1.board.ram? := by
  intro save held
  have reliable' : FileStore.IsReliable
      (fun store => Good store ∧ FileStore.read store path = .ok image) save :=
    reliable.and fun bytes good found => apart bytes good found
  have opens := fun store (good : Good store ∧ FileStore.read store path = .ok image) =>
    IsSaved.openFile reliable' good good.2 loaded battery has_ram
  obtain ⟨store, sessions, good', kept⟩ := exists_sessions reliable' opens ⟨good, there⟩ past
  obtain ⟨opened, opens_again, saved⟩ := opens store good'
  have later := saved.run reliable' ops
  obtain ⟨next, opens_next, saved_next⟩ := opens _ later.good
  -- RAM is what all operations so far make of what the first save brought.
  have present := later.ram
  rw [saved.load_kept_run reliable', kept, ← ramAfter_append] at present
  have holds {place : Nat} (inside : place < ramSize) :
      (ramAfter (blankRam.load (FileStore.kept start save)) (past.flatten ++ ops)).read place =
        held place :=
    read_ramAfter_load _ _ inside
  refine ⟨store, opened, sessions, opens_again, ?_, ?_, ?_, ?_, ?_, ?_⟩
  · exact ⟨_, present, (size_ramAfter _ _).trans (size_savedRam _), fun _ => holds⟩
  · intro address place reached
    have inside : place < ramSize := by
      have := Board.ramPlace?_lt reached
      rw [ramSize]
      omega
    rw [cpuRead, Board.cpuRead_of_ram? present reached]
    exact congrArg some (holds inside)
  · intro place beyond
    exact congrArg (fun last : Option UInt8 => last.getD _) (lastWritten?_of_le _ beyond)
  · intro op writes
    obtain ⟨ram, after, size, -, written⟩ := later.apply_of_writes reliable' writes
    exact ⟨ram, after, size, by rw [written]; exact reliable'.read_write _ later.good⟩
  · intro op reads
    rw [apply_of_ramWrite?_eq_none _ reads]
  · exact ⟨next, opens_next, saved_next.ram.trans later.ram.symm⟩

end Sessions

/-- What is written in one session is read in the next. -/
theorem batteryRam_survives_of_write :
    ∃ store opened,
      [[Operation.cpuWrite 0x6000 0x5A 0]].foldlM (session "quest.nes" none)
        (Disk.ofFile "quest.nes" blankBatteryImage) = .ok store ∧
      openFile "quest.nes" none store = .ok opened ∧ opened.cpuRead 0x6000 = some 0x5A := by
  obtain ⟨blank, loaded, battery, present⟩ := exists_blankBattery
  let d := Disk.ofFile "quest.nes" blankBatteryImage
  let save := Persistence.pathFor "quest.nes" none
  have name : save = "quest.sav" := rfl
  have image : d.locate "quest.nes" = .ok ["quest.nes"] := rfl
  have beside : d.locate save = .ok ["quest.sav"] := by
    rw [name]
    rfl
  have found : d.read "quest.nes" = .ok blankBatteryImage := rfl
  have vacant : d.entryAt? ["quest.sav"] = none := rfl
  have place : d.HasPlace save := ⟨["quest.sav"], beside, by rw [vacant]; nofun⟩
  have elsewhere : d.locate save ≠ d.locate "quest.nes" := by
    rw [image, beside]
    intro same
    exact absurd (Except.ok.inj same) (by decide)
  obtain ⟨store, opened, sessions, opens, -, answers, -⟩ :=
    batteryRam_survives (Disk.isReliable_apart save "quest.nes") (Disk.leavesAlone save "quest.nes")
      ⟨place, ⟨_, found⟩, elsewhere⟩ (Disk.fileStore_read_eq_ok_iff.mpr found) loaded battery
      (by rw [present]; rfl) [[.cpuWrite 0x6000 0x5A 0]] []
  exact ⟨store, opened, sessions, opens, answers 0x6000 0 rfl⟩

end Cartridge

end Famicom
