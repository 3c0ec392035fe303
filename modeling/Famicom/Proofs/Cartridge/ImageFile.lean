import Famicom.Proofs.Cartridge.BatteryRam
import Famicom.Proofs.Storage.LastName

/-!
# The file of an image

A session writes no file but the save of its cartridge. Whether that leaves the image alone is a
matter of where the path of the save leads: a save is named after its image and has an extension of
its own, but nothing keeps an image from having that extension too. An image with a battery that is
its own save is replaced by RAM with the first write there.

## Main results

* `Cartridge.read_of_isApart` — an image that the save is apart from is never changed
* `Cartridge.read_of_own_save` — an image that is its own save becomes RAM
* `Cartridge.imageFile_survives_unless_own_save` — which images survive a session
* `Cartridge.imageFile_overwritten` — an image that does not
-/

namespace Famicom

namespace Cartridge

section Files

variable {δ : Type} [FileStore δ] {path : String} {directory : Option String}

/-! ### Which file is written -/

/-- What writes to the save keep of the files, sessions keep. -/
theorem run_keeps {save : String} (Kept : δ → Prop)
    (keeps : ∀ {store} (bytes : ByteArray), Kept store → Kept (FileStore.write store save bytes).2)
    (s : Cartridge × δ) (only : ∀ file, s.1.persistence.path? = some file → file = save)
    (kept : Kept s.2) (ops : List Operation) : Kept (ops.foldl apply s).2 := by
  -- An operation gives a cartridge no other save, so what holds of the first holds of all.
  induction ops generalizing s with
  | nil => exact kept
  | cons op ops ih =>
    refine ih _ (fun file attached => only file (path?_apply s op attached)) ?_
    obtain same | ⟨file, bytes, held, -, -, written⟩ := apply_snd_cases s op
    · exact same ▸ kept
    · obtain rfl := only file (by rw [held]; rfl)
      exact written ▸ keeps bytes kept

/-- Without a battery, without RAM or without a write to RAM no file is written. -/
theorem run_snd_of_unsaved {s : Cartridge × δ} {ops : List Operation}
    (unsaved : ¬ (s.1.header.hasBattery = true ∧ s.1.board.ram?.isSome = true ∧
      ∃ op ∈ ops, op.ramWrite?.isSome = true)) : (ops.foldl apply s).2 = s.2 := by
  induction ops generalizing s with
  | nil => rfl
  | cons op ops ih =>
    have still : ¬ ((apply s op).1.header.hasBattery = true ∧
        (apply s op).1.board.ram?.isSome = true ∧ ∃ op ∈ ops, op.ramWrite?.isSome = true) := by
      rw [header_apply, ram?_apply, Option.isSome_map]
      rintro ⟨battery, has_ram, other, member, writes⟩
      exact unsaved ⟨battery, has_ram, other, List.mem_cons_of_mem _ member, writes⟩
    rw [List.foldl_cons, ih still]
    obtain same | ⟨-, -, -, saving, has_ram, -⟩ := apply_snd_cases s op
    · exact same
    · obtain ⟨writes, battery⟩ := Bool.and_eq_true_iff.mp saving
      exact absurd ⟨battery, has_ram, op, List.mem_cons_self .., writes⟩ unsaved

/-- After a write to RAM the save is all of RAM, whatever follows. -/
theorem IsSaved.read_run {Good : δ → Prop} {save : String}
    (reliable : FileStore.IsReliable Good save) {s : Cartridge × δ} (saved : IsSaved Good save s)
    {ops : List Operation} (writes : ∃ op ∈ ops, op.ramWrite?.isSome = true) :
    ∃ ram, (ops.foldl Cartridge.apply s).1.board.ram? = some ram ∧ ram.size = Board.ramSize ∧
      FileStore.read (ops.foldl Cartridge.apply s).2 save = .ok ram.bytes := by
  -- From the end of the run: either the last operation saves, or it changes neither RAM nor a file.
  induction ops using List.reverseRecOn with
  | nil =>
    obtain ⟨op, member, -⟩ := writes
    cases member
  | append_singleton ops op ih =>
    have later := saved.run reliable ops
    rw [List.foldl_append, List.foldl_cons, List.foldl_nil]
    cases here : op.ramWrite? with
    | some write =>
      obtain ⟨ram, present, size, -, written⟩ :=
        later.apply_of_writes reliable (Option.isSome_of_eq_some here)
      exact ⟨ram, present, size, by rw [written]; exact reliable.read_write _ later.good⟩
    | none =>
      have earlier : ∃ op ∈ ops, op.ramWrite?.isSome = true := by
        obtain ⟨other, member, writes⟩ := writes
        rcases List.mem_append.mp member with before | last
        · exact ⟨other, before, writes⟩
        · rw [List.mem_singleton.mp last, here] at writes
          cases writes
      obtain ⟨ram, present, size, found⟩ := ih earlier
      rw [apply_of_ramWrite?_eq_none _ here]
      refine ⟨ram, ?_, size, found⟩
      rw [ram?_change, present, Option.map_some, op.onRam_onBoard, here, Option.elim_none]

end Files

/-! ### Disks -/

variable {path : String} {directory : Option String} {d : Disk} {c : Cartridge}

/-- An image that is apart from its save is never changed. -/
theorem read_of_isApart (opened : openFile path directory d = .ok c)
    (elsewhere : d.locate (Persistence.pathFor path directory) ≠ d.locate path)
    (ops : List Operation) : (ops.foldl apply (c, d)).2.read path = d.read path := by
  obtain ⟨image, -, there, -⟩ := openFile_eq_ok_iff.mp opened
  have apart : d.IsApart (Persistence.pathFor path directory) path :=
    ⟨⟨image, Disk.fileStore_read_eq_ok_iff.mp there⟩, elsewhere⟩
  have kept := run_keeps
    (fun later : Disk => later.IsApart (Persistence.pathFor path directory) path ∧
      later.read path = d.read path)
    (fun bytes ⟨apart, unchanged⟩ => (apart.write bytes).imp_right (·.trans unchanged))
    (c, d) (fun _ attached => path?_openFile opened attached) ⟨apart, rfl⟩ ops
  exact kept.2

/-- An image that is its own save becomes RAM. -/
theorem read_of_own_save (opened : openFile path directory d = .ok c)
    (same : d.locate (Persistence.pathFor path directory) = d.locate path)
    (battery : c.header.hasBattery = true) (has_ram : c.board.ram?.isSome = true)
    {ops : List Operation} (writes : ∃ op ∈ ops, op.ramWrite?.isSome = true) :
    ∃ ram, (ops.foldl apply (c, d)).1.board.ram? = some ram ∧ ram.size = Board.ramSize ∧
      (ops.foldl apply (c, d)).2.read path = .ok ram.bytes := by
  let save := Persistence.pathFor path directory
  have reliable : FileStore.IsReliable
      (fun d : Disk => d.HasPlace save ∧ d.locate save = d.locate path) save :=
    (Disk.isReliable save).and fun bytes place same => place.locate_write same bytes
  obtain ⟨image, blank, there, loaded, -⟩ := openFile_eq_ok_iff.mp opened
  obtain ⟨header, -, -, ram⟩ := memory_of_openFile opened there loaded
  -- The save leads to the file that the image was read from.
  have place : d.HasPlace save := by
    obtain ⟨location, leads, entry⟩ :=
      Disk.HasPlace.of_read (Disk.fileStore_read_eq_ok_iff.mp there)
    exact ⟨location, same.trans leads, entry⟩
  obtain ⟨c', opened', start⟩ :=
    IsSaved.openFile reliable ⟨place, same⟩ there loaded (header ▸ battery) (ram ▸ has_ram)
  obtain rfl := Except.ok.inj (opened.symm.trans opened')
  obtain ⟨ram, present, size, found⟩ := start.read_run reliable writes
  have still := (start.run reliable ops).good.2
  refine ⟨ram, present, size, ?_⟩
  rw [Disk.fileStore_read_eq_ok_iff, Disk.read, still] at found
  exact found

/-- **Images survive sessions unless they are their own saves.** On a disk, an image is overwritten
in a session exactly if its cartridge has a battery and RAM, the path of the save leads where that
of the image does and RAM is written; then the file holds RAM. Otherwise the file is unchanged, and
opened again brings the same memory. The paths can only lead to the same place if the image has the
extension of saves. -/
theorem imageFile_survives_unless_own_save (opened : openFile path directory d = .ok c)
    (ops : List Operation) :
    let save := Persistence.pathFor path directory
    let s := ops.foldl apply (c, d)
    let overwritten := c.header.hasBattery = true ∧ c.board.ram?.isSome = true ∧
      d.locate save = d.locate path ∧ ∃ op ∈ ops, op.ramWrite?.isSome = true
    (¬ overwritten → s.2.read path = d.read path ∧
      ∃ again, openFile path directory s.2 = .ok again ∧ again.prg = c.prg ∧ again.chr = c.chr) ∧
    (overwritten → ∃ ram, s.1.board.ram? = some ram ∧ ram.size = Board.ramSize ∧
      s.2.read path = .ok ram.bytes) ∧
    ∀ name, Path.fileName? path = some name → d.locate save = d.locate path →
      ∃ stem, name = stem ++ Persistence.extension := by
  intro save s overwritten
  obtain ⟨image, blank, there, loaded, -⟩ := openFile_eq_ok_iff.mp opened
  refine ⟨?_, ?_, ?_⟩
  · intro spared
    -- Nothing is saved, or elsewhere.
    have unchanged : s.2.read path = d.read path := by
      by_cases same : d.locate save = d.locate path
      · have untouched : s.2 = d := run_snd_of_unsaved
          fun ⟨battery, has_ram, writes⟩ => spared ⟨battery, has_ram, same, writes⟩
        rw [untouched]
      · exact read_of_isApart opened same ops
    have still_there : FileStore.read s.2 path = .ok image := by
      rw [Disk.fileStore_read_eq_ok_iff, unchanged]
      exact Disk.fileStore_read_eq_ok_iff.mp there
    obtain ⟨again, reopened⟩ : ∃ again, openFile path directory s.2 = .ok again :=
      ⟨_, openFile_eq_ok_iff.mpr ⟨image, blank, still_there, loaded, rfl⟩⟩
    obtain ⟨-, prg, chr, -⟩ := memory_of_openFile opened there loaded
    obtain ⟨-, prg', chr', -⟩ := memory_of_openFile reopened still_there loaded
    exact ⟨unchanged, again, reopened, prg'.trans prg.symm, chr'.trans chr.symm⟩
  · rintro ⟨battery, has_ram, same, writes⟩
    exact read_of_own_save opened same battery has_ram writes
  · intro name named same
    obtain ⟨location, leads, -⟩ :=
      Disk.read_eq_ok_iff.mp (Disk.fileStore_read_eq_ok_iff.mp there)
    exact Disk.extension_of_locate_eq named leads (same.trans leads)

/-! ### A battery image by two names -/

/-- Opened by the name of a save, a blank image with a battery is gone with the first write. -/
theorem imageFile_overwritten :
    let d := Disk.ofFile "quest.sav" blankBatteryImage
    ∃ c, openFile "quest.sav" none d = .ok c ∧
      ([Operation.cpuWrite 0x6000 0x01 0].foldl apply (c, d)).2.read "quest.sav" ≠
        d.read "quest.sav" := by
  intro d
  obtain ⟨blank, loaded, battery, present⟩ := exists_blankBattery
  have found : d.read "quest.sav" = .ok blankBatteryImage := rfl
  have there := Disk.fileStore_read_eq_ok_iff.mpr found
  obtain ⟨c, opened⟩ : ∃ c, openFile "quest.sav" none d = .ok c :=
    ⟨_, openFile_eq_ok_iff.mpr ⟨_, blank, there, loaded, rfl⟩⟩
  obtain ⟨header, -, -, ram⟩ := memory_of_openFile opened there loaded
  have own_save : Persistence.pathFor "quest.sav" none = "quest.sav" := rfl
  have same : d.locate (Persistence.pathFor "quest.sav" none) = d.locate "quest.sav" := by
    rw [own_save]
  obtain ⟨saved, -, size, after⟩ := read_of_own_save opened same (header.symm ▸ battery)
    (by rw [ram, present]; rfl) ⟨.cpuWrite 0x6000 0x01 0, List.mem_cons_self .., rfl⟩
  refine ⟨c, opened, ?_⟩
  rw [after, found]
  intro unchanged
  -- RAM and the image differ in size.
  have sizes := congrArg ByteArray.size (Except.ok.inj unchanged)
  rw [blankBatteryImage, size_bank] at sizes
  exact absurd (size.symm.trans sizes) (by decide)

/-- By any other name it survives. -/
theorem imageFile_survives_of_other_name :
    let d := Disk.ofFile "quest.nes" blankBatteryImage
    ∃ c, openFile "quest.nes" none d = .ok c ∧
      ([Operation.cpuWrite 0x6000 0x01 0].foldl apply (c, d)).2.read "quest.nes" =
        d.read "quest.nes" := by
  intro d
  obtain ⟨blank, loaded, -, -⟩ := exists_blankBattery
  have there := Disk.fileStore_read_eq_ok_iff.mpr (rfl : d.read "quest.nes" = .ok blankBatteryImage)
  obtain ⟨c, opened⟩ : ∃ c, openFile "quest.nes" none d = .ok c :=
    ⟨_, openFile_eq_ok_iff.mpr ⟨_, blank, there, loaded, rfl⟩⟩
  obtain ⟨spared, -, named⟩ :=
    imageFile_survives_unless_own_save opened [Operation.cpuWrite 0x6000 0x01 0]
  refine ⟨c, opened, (spared ?_).1⟩
  rintro ⟨-, -, same, -⟩
  obtain ⟨stem, name⟩ := named "quest.nes" rfl same
  have last := congrArg (fun name : String => name.toList.getLast?) name
  simp [Persistence.extension] at last

end Cartridge

end Famicom
