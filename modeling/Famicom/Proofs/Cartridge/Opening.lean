import Mathlib.Data.List.Basic
import Famicom.Proofs.Cartridge.Saving

/-!
# Opened cartridges

A cartridge that is opened from a file is the one that its image brings, but for two things: its
board may be given a save as RAM, and it may know where RAM is kept, or why it is not. All the rest
is the same for every save that there may be.

## Main definitions

* `Cartridge.detach` — a cartridge without its save
* `Cartridge.withRam` — a cartridge whose board is given RAM

## Main results

* `Cartridge.openFile_eq_ok_iff` — how a cartridge is opened
* `Cartridge.exists_openFile` — what an opened cartridge has from its image
* `Cartridge.detach_eq_of_openFile` — with equal RAM, cartridges of one image are one machine
* `Cartridge.path?_openFile` — the file that RAM is kept in
-/

namespace Famicom

open Board (blankRam)

/-! ### RAM that boards are given -/

namespace Board

theorem apply_loadRam_empty (b : Board) : b.apply (.loadRam .empty) = b := by
  cases b with
  | nrom _ | uxrom _ | cnrom _ => rfl
  | mmc1 b | mmc2 b | mmc3 b => simp [apply, loadRam]

/-- A board knows nothing of an image that it was given but what is in RAM. -/
theorem apply_loadRam_congr {b : Board} {image other : ByteArray}
    (same : (b.apply (.loadRam image)).ram? = (b.apply (.loadRam other)).ram?) :
    b.apply (.loadRam image) = b.apply (.loadRam other) := by
  cases b with
  | nrom _ | uxrom _ | cnrom _ => rfl
  | mmc1 b =>
    exact congrArg (fun ram => Board.mmc1 { b with ram }) (Option.some.inj same)
  | mmc2 b =>
    exact congrArg (fun ram => Board.mmc2 { b with ram }) (Option.some.inj same)
  | mmc3 b =>
    exact congrArg (fun ram => Board.mmc3 { b with ram }) (Option.some.inj same)

end Board

namespace Cartridge

/-- A cartridge without its save. -/
def detach (c : Cartridge) : Cartridge :=
  { c with persistence := .unused }

/-- A cartridge with an image in the RAM of its board, and without a save. -/
def withRam (c : Cartridge) (image : ByteArray) : Cartridge :=
  { c.detach with board := c.board.apply (.loadRam image) }

theorem withRam_empty (c : Cartridge) : c.withRam .empty = c.detach := by
  rw [withRam, Board.apply_loadRam_empty]
  rfl

/-! ### Opening -/

/-- The RAM of a board is blank when it comes from an image. -/
theorem ram?_of_ofImage {image : ByteArray} {c : Cartridge} (loaded : ofImage image = .ok c)
    {ram : Block} (present : c.board.ram? = some ram) : ram = blankRam := by
  have powered := (isMadeOf_of_ofImage loaded).2.ofNumber?
  unfold Board.ofNumber? at powered
  split at powered
  -- Each number that is known stands for a board with blank RAM or with none.
  all_goals
    first
    | cases powered
    | obtain board := Option.some.inj powered
      rw [← board] at present
      cases present
  all_goals rfl

section Opening

variable {δ : Type} [FileStore δ] {path : String} {directory : Option String}

/-- A file is opened by reading its image, and its save if there is a battery. -/
theorem openFile_eq_ok_iff {store : δ} {c : Cartridge} :
    openFile path directory store = .ok c ↔
      ∃ image blank, FileStore.read store path = .ok image ∧ ofImage image = .ok blank ∧
        c = if blank.header.hasBattery = true then
          blank.attachSave (Persistence.pathFor path directory) store else blank := by
  unfold openFile
  constructor
  · intro opened
    split at opened
    · cases opened
    · rename_i image there
      split at opened
      · cases opened
      · rename_i blank loaded
        exact ⟨image, blank, there, loaded, (Except.ok.inj opened).symm⟩
  · rintro ⟨image, blank, there, loaded, rfl⟩
    rw [there]
    dsimp only
    rw [loaded]

/-- All that a save brings to a machine is RAM. -/
theorem exists_attachSave (c : Cartridge) (save : String) (store : δ) :
    ∃ image, (c.attachSave save store).detach = c.withRam image := by
  unfold attachSave
  split
  · exact ⟨_, c.withRam_empty.symm⟩
  · split
    · split
      · exact ⟨_, rfl⟩
      · exact ⟨_, c.withRam_empty.symm⟩
    · exact ⟨_, c.withRam_empty.symm⟩

/-- An opened cartridge is the one that its image brings, but for RAM and the save. -/
theorem exists_openFile {store : δ} {c blank : Cartridge} {image : ByteArray}
    (opened : openFile path directory store = .ok c)
    (there : FileStore.read store path = .ok image) (loaded : ofImage image = .ok blank) :
    ∃ saved, c.detach = blank.withRam saved := by
  obtain ⟨image', blank', there', loaded', rfl⟩ := openFile_eq_ok_iff.mp opened
  obtain rfl := Except.ok.inj (there.symm.trans there')
  obtain rfl := Except.ok.inj (loaded.symm.trans loaded')
  split
  · exact blank.exists_attachSave _ store
  · exact ⟨.empty, blank.withRam_empty.symm⟩

/-- With the same RAM, cartridges of one image differ in their saves alone. -/
theorem detach_eq_of_openFile {δ' : Type} [FileStore δ'] {directory' : Option String} {store : δ}
    {store' : δ'} {c c' : Cartridge} (opened : openFile path directory store = .ok c)
    (opened' : openFile path directory' store' = .ok c')
    (image : FileStore.read store path = FileStore.read store' path)
    (ram : c.board.ram? = c'.board.ram?) : c.detach = c'.detach := by
  obtain ⟨rom, blank, there, loaded, -⟩ := openFile_eq_ok_iff.mp opened
  obtain ⟨saved, brought⟩ := exists_openFile opened there loaded
  obtain ⟨saved', brought'⟩ := exists_openFile opened' (image.symm.trans there) loaded
  -- Each save brought an image into the RAM of the same board.
  have boards : c.board = blank.board.apply (.loadRam saved) :=
    (congrArg board brought : c.detach.board = _)
  have boards' : c'.board = blank.board.apply (.loadRam saved') :=
    (congrArg board brought' : c'.detach.board = _)
  rw [boards, boards'] at ram
  rw [brought, brought', withRam, withRam, Board.apply_loadRam_congr ram]

/-- What can be read off an image is the same for every save. -/
theorem memory_of_openFile {store : δ} {c blank : Cartridge} {image : ByteArray}
    (opened : openFile path directory store = .ok c)
    (there : FileStore.read store path = .ok image) (loaded : ofImage image = .ok blank) :
    c.header = blank.header ∧ c.prg = blank.prg ∧ c.chr = blank.chr ∧
      c.board.ram?.isSome = blank.board.ram?.isSome := by
  obtain ⟨saved, brought⟩ := exists_openFile opened there loaded
  have ram : c.board.ram? = (blank.board.apply (.loadRam saved)).ram? :=
    (congrArg (·.board.ram?) brought : c.detach.board.ram? = _)
  refine ⟨?_, ?_, ?_, ?_⟩
  · exact (congrArg header brought : c.detach.header = _)
  · exact (congrArg prg brought : c.detach.prg = _)
  · exact (congrArg chr brought : c.detach.chr = _)
  · rw [ram, Board.ram?_apply, Option.isSome_map]

theorem path?_attachSave {c : Cartridge} (unsaved : c.persistence = .unused) {save : String}
    {store : δ} {file : String}
    (attached : (c.attachSave save store).persistence.path? = some file) : file = save := by
  unfold attachSave at attached
  split at attached
  · rw [unsaved] at attached
    cases attached
  · split at attached
    · split at attached <;> cases attached
      rfl
    · cases attached
      rfl

/-- The save of an opened cartridge is the one that belongs to its image. -/
theorem path?_openFile {store : δ} {c : Cartridge} (opened : openFile path directory store = .ok c)
    {file : String} (attached : c.persistence.path? = some file) :
    file = Persistence.pathFor path directory := by
  obtain ⟨image, blank, -, loaded, rfl⟩ := openFile_eq_ok_iff.mp opened
  have unsaved := (isMadeOf_of_ofImage loaded).2.unsaved
  split at attached
  · exact path?_attachSave unsaved attached
  · rw [unsaved] at attached
    cases attached

end Opening

/-! ### A blank cartridge with a battery -/

/-- The image of a blank MMC1 cartridge with a battery. -/
def blankBatteryImage : ByteArray :=
  blankImage (bankHeader 0x12) 16384

theorem exists_blankBattery :
    ∃ c, ofImage blankBatteryImage = .ok c ∧ c.header.hasBattery = true ∧
      c.board.ram? = some blankRam := by
  have untrained : (0x12 : UInt8) &&& 0x04 = 0 := by decide
  obtain ⟨c, loaded, flags, powered, -⟩ := exists_ofImage_bank untrained (by decide)
  refine ⟨c, loaded, ?_, ?_⟩
  · rw [Header.hasBattery, flags]
    decide
  · rw [← Option.some.inj powered]
    rfl

end Cartridge

end Famicom
