import Famicom.Proofs.Cartridge.Opening
import Famicom.Proofs.Cartridge.Saving
import Famicom.Proofs.Storage.Files

/-!
# Saves that fail

A save that cannot be read or written is a matter of the save alone. The machine that a cartridge
is goes on as if nothing were saved: it answers every operation as before and changes as before.
What is known of the save only ever moves from a file to a warning, and from then on no access is
made and the warning stays.

Nothing is asked of the file system here; any pattern of failures is one of some file system. To see
which writes are attempted, a file system is given a log.

## Main definitions

* `Cartridge.Answer`, `Cartridge.answers` — what the console sees of operations
* `LoggedStore` — a file system that keeps a log of writes
* `Persistence.Accounts` — what is known of a save, and the log of writes to it

## Main results

* `Cartridge.answers_congr` — the save has no part in what the console sees
* `Cartridge.accounts_apply` — an operation keeps the accounts
* `Cartridge.saveFailures_contained` — opened cartridges on file systems that fail at any time
-/

namespace Famicom

/-! ### File systems with a log -/

/-- An attempt to write a file, and why it was refused, if it was. -/
structure WriteAttempt where
  path : String
  bytes : ByteArray
  refusal : Option String

/-- A file system with a log of all attempts to write, the oldest first. -/
structure LoggedStore (δ : Type) where
  store : δ
  attempts : List WriteAttempt := []

/-- Whatever a file system answers to a write is logged. -/
instance {δ : Type} [FileStore δ] : FileStore (LoggedStore δ) where
  contains s := FileStore.contains s.store
  read s := FileStore.read s.store
  write s path bytes :=
    let (refusal, store) := FileStore.write s.store path bytes
    (refusal, ⟨store, s.attempts ++ [⟨path, bytes, refusal⟩]⟩)

namespace LoggedStore

variable {δ : Type} [FileStore δ]

theorem write_fst (s : LoggedStore δ) (path : String) (bytes : ByteArray) :
    (FileStore.write s path bytes).1 = (FileStore.write s.store path bytes).1 :=
  rfl

theorem attempts_write (s : LoggedStore δ) (path : String) (bytes : ByteArray) :
    (FileStore.write s path bytes).2.attempts =
      s.attempts ++ [⟨path, bytes, (FileStore.write s.store path bytes).1⟩] :=
  rfl

end LoggedStore

namespace Cartridge

/-! ### What the console sees -/

/-- What the console sees of an operation. -/
@[ext] structure Answer where
  /-- A write is taken. -/
  taken : Bool
  /-- The byte that is read. -/
  byte : Option UInt8
  nametables : NametableLayout
  irqPending : Bool
  deriving DecidableEq, Repr

section Answers

variable {δ : Type} [FileStore δ]

/-- The answer to an operation. -/
def answer (s : Cartridge × δ) (op : Operation) : Answer where
  taken :=
    match op with
    | .cpuWrite address data step => (s.1.cpuWrite address data step s.2).1
    | .patternWrite address data => (s.1.patternWrite address data).1
    | _ => false
  byte :=
    match op with
    | .cpuRead address => s.1.cpuRead address
    | .patternRead address => (s.1.patternRead address).1
    | _ => none
  nametables := (apply s op).1.nametables
  irqPending := (apply s op).1.irqPending

/-- The answers to operations, one after the other. -/
def answers (s : Cartridge × δ) : List Operation → List Answer
  | [] => []
  | op :: ops => answer s op :: answers (apply s op) ops

theorem detach_apply (s : Cartridge × δ) (op : Operation) :
    (apply s op).1.detach = s.1.detach.change op := by
  obtain ⟨persistence, changed⟩ := exists_apply_eq_change s op
  rw [changed]
  rfl

theorem cpuWrite_fst (c : Cartridge) (address : UInt16) (data : UInt8) (step : UInt64) (store : δ) :
    (c.cpuWrite address data step store).1 = (c.board.cpuWrite address data step).1.isSome := by
  obtain ⟨header, container, prg, chr, board, persistence⟩ := c
  unfold cpuWrite
  dsimp only
  rcases board.cpuWrite address data step with ⟨_ | ⟨offset⟩ | _, board'⟩
  · rfl
  · rfl
  · by_cases battery : header.hasBattery = true <;> simp [battery]

theorem patternWrite_fst (c : Cartridge) (address : UInt16) (data : UInt8) :
    (c.patternWrite address data).1 = (c.board.chrWrite address).isSome := by
  unfold patternWrite
  cases c.board.chrWrite address <;> rfl

variable {δ' : Type} [FileStore δ'] {s : Cartridge × δ} {s' : Cartridge × δ'}

theorem detach_apply_congr (same : s.1.detach = s'.1.detach) (op : Operation) :
    (apply s op).1.detach = (apply s' op).1.detach := by
  rw [detach_apply, detach_apply, same]

/-- Cartridges that differ in their saves answer alike. -/
theorem answer_congr (same : s.1.detach = s'.1.detach) (op : Operation) :
    answer s op = answer s' op := by
  have boards : s.1.board = s'.1.board :=
    (congrArg board same : s.1.detach.board = s'.1.detach.board)
  have after := detach_apply_congr same op
  -- Every part of an answer is computed from the cartridge without its save.
  ext1
  · cases op with
    | cpuWrite address data step =>
      change (s.1.cpuWrite address data step s.2).1 = (s'.1.cpuWrite address data step s'.2).1
      rw [cpuWrite_fst, cpuWrite_fst, boards]
    | patternWrite address data =>
      change (s.1.patternWrite address data).1 = (s'.1.patternWrite address data).1
      rw [patternWrite_fst, patternWrite_fst, boards]
    | cpuRead _ | patternRead _ | scanline | clearIrq | reset | setGate _ => rfl
  · cases op with
    | cpuRead address => exact congrArg (·.cpuRead address) same
    | patternRead address => exact congrArg (fun c => (c.patternRead address).1) same
    | cpuWrite _ _ _ | patternWrite _ _ | scanline | clearIrq | reset | setGate _ => rfl
  · exact (congrArg nametables after : (apply s op).1.detach.nametables = _)
  · exact (congrArg irqPending after : (apply s op).1.detach.irqPending = _)

/-- The save has no part in what the console sees, nor in what becomes of the machine. -/
theorem answers_congr (same : s.1.detach = s'.1.detach) (ops : List Operation) :
    answers s ops = answers s' ops ∧
      (ops.foldl apply s).1.detach = (ops.foldl apply s').1.detach := by
  induction ops generalizing s s' with
  | nil => exact ⟨rfl, same⟩
  | cons op ops ih =>
    obtain ⟨alike, after⟩ := ih (detach_apply_congr same op)
    exact ⟨by rw [answers, answers, answer_congr same op, alike], after⟩

end Answers

end Cartridge

/-! ### What is known of the save -/

/-- What is known of a save agrees with the log: no attempt was refused but perhaps the last one,
which is then why RAM is no longer saved. -/
inductive Persistence.Accounts (save : String) : Persistence → List WriteAttempt → Prop
  | unused : Accounts save .unused []
  | unread (reason : String) : Accounts save (.failed ⟨.read, save, reason⟩) []
  | kept {attempts : List WriteAttempt}
    (accepted : ∀ attempt ∈ attempts, attempt.path = save ∧ attempt.refusal = none) :
    Accounts save (.file save) attempts
  | lost {attempts : List WriteAttempt} (bytes : ByteArray) (reason : String)
    (accepted : ∀ attempt ∈ attempts, attempt.path = save ∧ attempt.refusal = none) :
    Accounts save (.failed ⟨.write, save, reason⟩) (attempts ++ [⟨save, bytes, some reason⟩])

namespace Cartridge

section Accounts

variable {δ : Type} [FileStore δ]

/-- Without a file to write to, an operation is its change of the machine. -/
theorem apply_of_path?_eq_none {s : Cartridge × δ} (detached : s.1.persistence.path? = none)
    (op : Operation) : apply s op = (s.1.change op, s.2) := by
  have still : (s.1.change op).persistence.path? = none := detached
  rw [apply_eq, persist_of_path?_eq_none still, ite_self]

/-- What is known of a save that is not written stays, and so do all files. -/
theorem run_of_path?_eq_none {s : Cartridge × δ} (detached : s.1.persistence.path? = none)
    (ops : List Operation) :
    (ops.foldl apply s).1.persistence = s.1.persistence ∧ (ops.foldl apply s).2 = s.2 := by
  induction ops generalizing s with
  | nil => exact ⟨rfl, rfl⟩
  | cons op ops ih =>
    rw [List.foldl_cons, apply_of_path?_eq_none detached]
    exact ih detached

theorem path?_of_warning? {persistence : Persistence} {warning : SaveWarning}
    (warned : persistence.warning? = some warning) : persistence.path? = none := by
  cases persistence with
  | unused | file _ => cases warned
  | failed _ => rfl

/-- A save is logged, and a refusal is remembered. -/
theorem accounts_persist {save : String} {c : Cartridge} {s : LoggedStore δ}
    (accounts : c.persistence.Accounts save s.attempts) :
    (c.persist s).1.persistence.Accounts save (c.persist s).2.attempts := by
  cases known : c.persistence with
  | unused | failed _ =>
    rw [persist_of_path?_eq_none (by rw [known]; rfl)]
    exact accounts
  | file path =>
    cases present : c.board.ram? with
    | none =>
      rw [persist_of_ram?_eq_none present]
      exact accounts
    | some ram =>
      rw [persist_of_file known present]
      rw [known] at accounts
      obtain _ | _ | accepted := accounts
      dsimp only
      rw [LoggedStore.write_fst, LoggedStore.attempts_write]
      -- The log goes on if the write is accepted, and ends with it if not.
      cases (FileStore.write s.store save ram.bytes).1 with
      | none =>
        refine .kept fun attempt member => ?_
        rcases List.mem_append.mp member with earlier | last
        · exact accepted attempt earlier
        · obtain rfl := List.mem_singleton.mp last
          exact ⟨rfl, rfl⟩
      | some reason => exact .lost ram.bytes reason accepted

/-- An operation keeps the accounts. -/
theorem accounts_apply {save : String} {s : Cartridge × LoggedStore δ}
    (accounts : s.1.persistence.Accounts save s.2.attempts) (op : Operation) :
    (apply s op).1.persistence.Accounts save (apply s op).2.attempts := by
  rw [apply_eq]
  split
  · exact accounts_persist accounts
  · exact accounts

/-! ### Opening -/

/-- An opened cartridge knows why it has no save. -/
theorem accounts_attachSave {c : Cartridge} (unsaved : c.persistence = .unused) (save : String)
    (store : δ) : (c.attachSave save store).persistence.Accounts save [] := by
  have nothing : ∀ attempt ∈ ([] : List WriteAttempt),
      attempt.path = save ∧ attempt.refusal = none := by
    intro attempt member
    cases member
  unfold attachSave
  split
  · rw [unsaved]
    exact .unused
  · split
    · split
      · exact .kept nothing
      · exact .unread _
    · exact .kept nothing

theorem accounts_openFile {path : String} {directory : Option String} {store : δ} {c : Cartridge}
    (opened : openFile path directory store = .ok c) :
    c.persistence.Accounts (Persistence.pathFor path directory) [] := by
  obtain ⟨image, blank, -, loaded, rfl⟩ := openFile_eq_ok_iff.mp opened
  have unsaved := (isMadeOf_of_ofImage loaded).2.unsaved
  split
  · exact accounts_attachSave unsaved _ store
  · rw [unsaved]
    exact .unused

/-- A save that is there but cannot be read leaves a warning. -/
theorem persistence_of_unread {path : String} {directory : Option String} {store : δ}
    {c : Cartridge} (opened : openFile path directory store = .ok c) {reason : String}
    (battery : c.header.hasBattery = true) (has_ram : c.board.ram?.isSome = true)
    (there : FileStore.contains store (Persistence.pathFor path directory) = true)
    (unread : FileStore.read store (Persistence.pathFor path directory) = .error reason) :
    c.persistence = .failed ⟨.read, Persistence.pathFor path directory, reason⟩ := by
  obtain ⟨image, blank, -, -, rfl⟩ := openFile_eq_ok_iff.mp opened
  split at battery
  · rename_i blank_battery
    rw [if_pos blank_battery] at has_ram ⊢
    unfold attachSave at has_ram ⊢
    split at has_ram
    · rename_i absent
      rw [Option.isNone_iff_eq_none] at absent
      rw [absent] at has_ram
      cases has_ram
    · rename_i present
      rw [if_neg present, if_pos there, unread]
  · exact absurd battery ‹_›

/-- **Failing saves stay outside the machine.** However a file system answers to the first read of a
save and to all later writes, an opened cartridge answers operations and changes as any that differs
from it in the save alone; cartridges of one image with the same RAM do. What is known of the save
agrees with the log of writes: the first access that is refused leaves a warning in place of the
path, and from then on no write is attempted and the warning stays. -/
theorem saveFailures_contained {path : String} {directory : Option String} {store : δ}
    {c : Cartridge}
    (opened : openFile path directory (⟨store, []⟩ : LoggedStore δ) = .ok c)
    (ops : List Operation) :
    let save := Persistence.pathFor path directory
    let start : Cartridge × LoggedStore δ := (c, ⟨store, []⟩)
    let s := ops.foldl apply start
    (∀ (δ' : Type) [FileStore δ'] (store' : δ') (c' : Cartridge),
      openFile path directory store' = .ok c' →
        FileStore.read store' path = FileStore.read store path → c'.board.ram? = c.board.ram? →
          c'.detach = c.detach) ∧
    (∀ (δ' : Type) [FileStore δ'] (store' : δ') (c' : Cartridge), c'.detach = c.detach →
      answers (c', store') ops = answers start ops ∧
        (ops.foldl apply (c', store')).1.detach = s.1.detach) ∧
    (∀ reason, c.header.hasBattery = true → c.board.ram?.isSome = true →
      FileStore.contains store save = true → FileStore.read store save = .error reason →
        c.persistence = .failed ⟨.read, save, reason⟩) ∧
    s.1.persistence.Accounts save s.2.attempts ∧
    ∀ warning, s.1.persistence.warning? = some warning → s.1.persistence.path? = none ∧
      ∀ more : List Operation, (more.foldl apply s).1.persistence.warning? = some warning ∧
        (more.foldl apply s).2.attempts = s.2.attempts := by
  intro save start s
  refine ⟨?_, ?_, ?_, ?_, ?_⟩
  · intro δ' _ store' c' opened' image ram
    exact detach_eq_of_openFile opened' opened image ram
  · intro δ' _ store' c' same
    exact answers_congr same ops
  · intro reason battery has_ram there unread
    exact persistence_of_unread opened battery has_ram there unread
  · exact List.foldlRecOn ops apply (motive := fun s : Cartridge × LoggedStore δ =>
      s.1.persistence.Accounts save s.2.attempts) (accounts_openFile opened)
      fun _ accounts op _ => accounts_apply accounts op
  · intro warning warned
    have detached := path?_of_warning? warned
    refine ⟨detached, fun more => ?_⟩
    obtain ⟨known, files⟩ := run_of_path?_eq_none detached more
    exact ⟨known ▸ warned, by rw [files]⟩

end Accounts

/-- A save into a directory that does not exist is lost with the first write to RAM. -/
theorem saveFailures_contained_of_missing :
    let start : LoggedStore Disk := ⟨.ofFile "quest.nes" blankBatteryImage, []⟩
    ∃ c, openFile "quest.nes" (some "missing") start = .ok c ∧
      ∀ more : List Operation,
        let s := [Operation.cpuWrite 0x6000 0x5A 0].foldl apply (c, start)
        s.2.attempts.length = 1 ∧ s.1.persistence.path? = none ∧
        (more.foldl apply s).2.attempts = s.2.attempts ∧
        (more.foldl apply s).1.persistence.warning? =
          some ⟨.write, "missing/quest.sav", "No such file or directory"⟩ := by
  intro start
  obtain ⟨blank, loaded, battery, present⟩ := exists_blankBattery
  let save := Persistence.pathFor "quest.nes" (some "missing")
  let c : Cartridge := { blank with persistence := .file save }
  let op := Operation.cpuWrite 0x6000 0x5A 0
  have there : FileStore.read start "quest.nes" = .ok blankBatteryImage := rfl
  have name : save = "missing/quest.sav" := rfl
  have absent : FileStore.contains start save = false := by
    rw [name]
    rfl
  have refused (bytes : ByteArray) :
      (FileStore.write start.store save bytes).1 = some "No such file or directory" := by
    rw [name]
    rfl
  have opened : openFile "quest.nes" (some "missing") start = .ok c := by
    refine openFile_eq_ok_iff.mpr ⟨_, blank, there, loaded, ?_⟩
    rw [if_pos battery, attachSave, present, absent]
    rfl
  have saves : c.saves op = true := battery
  have attached : (c.change op).persistence = .file save := rfl
  have ram : (c.change op).board.ram? = some (op.onBoard.onRam Board.blankRam) := by
    rw [ram?_change, present, Option.map_some]
  have written : apply (c, start) op = (c.change op).persist start := by
    rw [apply_eq, if_pos saves]
  rw [persist_of_file attached ram] at written
  have warned : (apply (c, start) op).1.persistence.warning? =
      some ⟨.write, save, "No such file or directory"⟩ := by
    rw [written, LoggedStore.write_fst, refused]
    rfl
  obtain ⟨-, -, -, -, afterwards⟩ := saveFailures_contained opened [op]
  obtain ⟨detached, stays⟩ := afterwards _ warned
  refine ⟨c, opened, fun more => ⟨?_, detached, (stays more).2, (stays more).1⟩⟩
  change (apply (c, start) op).2.attempts.length = 1
  rw [written, LoggedStore.attempts_write, List.length_append]
  rfl

end Cartridge

end Famicom
