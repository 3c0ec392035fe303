import Mathlib.Data.List.Basic
import Famicom.Proofs.Transition
import Famicom.Storage.Disk

/-!
# Files that can be relied on

A file is reliable while every access to it succeeds and a write replaces all of it. On a disk the
file at a path is, as long as the path leads to something other than a directory: writing files
moves no path, and changes nothing at any other location.

## Main definitions

* `FileStore.IsReliable` — every access to a file succeeds
* `FileStore.kept` — the bytes of a file, none if there is no file
* `Disk.HasPlace` — a path leads to a file, or to where one can be made

## Main results

* `Disk.locate_put_eq_ok_iff` — writing a file moves no path
* `Disk.isReliable` — files on a disk are reliable
-/

namespace Famicom

namespace FileStore

variable {δ : Type} [FileStore δ]

/-- In good states every access to the file at a path succeeds, and a write there leaves a good
state with exactly what was written. -/
structure IsReliable (Good : δ → Prop) (path : String) : Prop where
  readable : ∀ {store}, Good store → contains store path = true →
    ∃ bytes, read store path = .ok bytes
  accepts : ∀ {store} (bytes : ByteArray), Good store → (write store path bytes).1 = none
  good_write : ∀ {store} (bytes : ByteArray), Good store → Good (write store path bytes).2
  contains_write : ∀ {store} (bytes : ByteArray), Good store →
    contains (write store path bytes).2 path = true
  read_write : ∀ {store} (bytes : ByteArray), Good store →
    read (write store path bytes).2 path = .ok bytes

/-- The bytes of the file at a path, none if there is no file that can be read. -/
def kept (store : δ) (path : String) : ByteArray :=
  match contains store path, read store path with
  | true, .ok bytes => bytes
  | _, _ => .empty

/-- In good states a write to one path leaves the file at another as it is. -/
def LeavesAlone (Good : δ → Prop) (path other : String) : Prop :=
  ∀ {store} (bytes : ByteArray) {content : ByteArray}, Good store →
    read store other = .ok content → read (write store path bytes).2 other = .ok content

/-- More can be asked of good states, if writes keep it. -/
theorem IsReliable.and {Good Kept : δ → Prop} {path : String} (reliable : IsReliable Good path)
    (keeps : ∀ {store} (bytes : ByteArray), Good store → Kept store →
      Kept (write store path bytes).2) :
    IsReliable (fun store => Good store ∧ Kept store) path where
  readable good := reliable.readable good.1
  accepts bytes good := reliable.accepts bytes good.1
  good_write bytes good := ⟨reliable.good_write bytes good.1, keeps bytes good.1 good.2⟩
  contains_write bytes good := reliable.contains_write bytes good.1
  read_write bytes good := reliable.read_write bytes good.1

theorem IsReliable.kept_write {Good : δ → Prop} {path : String} (reliable : IsReliable Good path)
    {store : δ} (good : Good store) (bytes : ByteArray) :
    kept (write store path bytes).2 path = bytes := by
  unfold kept
  rw [reliable.contains_write bytes good, reliable.read_write bytes good]

end FileStore

namespace Disk

variable {d : Disk}

/-! ### Entries -/

/-- Dropping the entries at one location leaves those at any other. -/
theorem lookup_filter_ne {location other : Location} (elsewhere : other ≠ location)
    (entries : List (Location × DiskEntry)) :
    (entries.filter (·.1 != location)).lookup other = entries.lookup other := by
  induction entries with
  | nil => rfl
  | cons first rest ih =>
    obtain ⟨place, entry⟩ := first
    by_cases dropped : place = location
    · have unread : (other == place) = false := beq_eq_false_iff_ne.mpr (dropped ▸ elsewhere)
      rw [List.filter_cons_of_neg (by simpa using dropped), ih, List.lookup_cons, unread]
    · rw [List.filter_cons_of_pos (by simpa using dropped), List.lookup_cons, List.lookup_cons, ih]

/-- Putting an entry somewhere changes nothing elsewhere, and the root stays a directory. -/
theorem entryAt?_put (d : Disk) (location other : Location) (entry : DiskEntry) :
    (d.put location entry).entryAt? other =
      if other ≠ [] ∧ other = location then some entry else d.entryAt? other := by
  unfold entryAt? put
  cases other with
  | nil => rfl
  | cons name rest =>
    rw [List.lookup_cons]
    by_cases same : name :: rest = location
    · subst same
      simp
    · have elsewhere := lookup_filter_ne same d.entries
      simp [same, beq_eq_false_iff_ne.mpr same, elsewhere]

theorem entryAt?_put_ne {location other : Location} (elsewhere : other ≠ location)
    (entry : DiskEntry) : (d.put location entry).entryAt? other = d.entryAt? other := by
  rw [entryAt?_put, if_neg fun here => elsewhere here.2]

theorem ne_nil_of_vacant {location : Location} (vacant : d.entryAt? location ≠ some .directory) :
    location ≠ [] := by
  rintro rfl
  exact vacant rfl

theorem entryAt?_put_self {location : Location}
    (vacant : d.entryAt? location ≠ some .directory) (entry : DiskEntry) :
    (d.put location entry).entryAt? location = some entry := by
  rw [entryAt?_put, if_pos ⟨ne_nil_of_vacant vacant, rfl⟩]

/-! ### Paths -/

theorem descend_ne_ok {start : Location} (outside : d.entryAt? start ≠ some .directory)
    {component : String} (next : Location) : d.descend start component ≠ .ok next := by
  unfold descend
  cases entry : d.entryAt? start with
  | none => simp
  | some entry' =>
    cases entry' with
    | directory => exact absurd entry outside
    | file _ => simp

section Put

variable {location : Location} (vacant : d.entryAt? location ≠ some .directory) (bytes : ByteArray)
include vacant

/-- Writing a file makes no directory and removes none. -/
theorem isDirectory_put_iff (other : Location) :
    (d.put location (.file bytes)).entryAt? other = some .directory ↔
      d.entryAt? other = some .directory := by
  by_cases here : other = location
  · subst here
    rw [entryAt?_put_self vacant]
    simp [vacant]
  · rw [entryAt?_put_ne here]

theorem descend_put_eq_ok_iff {start next : Location} {component : String} :
    (d.put location (.file bytes)).descend start component = .ok next ↔
      d.descend start component = .ok next := by
  -- A step only asks whether it starts at a directory.
  by_cases directory : d.entryAt? start = some .directory
  · have still := (isDirectory_put_iff vacant bytes start).mpr directory
    unfold descend
    rw [directory, still]
  · have still := mt (isDirectory_put_iff vacant bytes start).mp directory
    exact iff_of_false (descend_ne_ok still next) (descend_ne_ok directory next)

/-- The same walks lead somewhere before and after, and to the same places. -/
theorem foldlM_descend_put_eq_ok_iff (components : List String) {start place : Location} :
    components.foldlM (d.put location (.file bytes)).descend start = .ok place ↔
      components.foldlM d.descend start = .ok place := by
  induction components generalizing start with
  | nil => rfl
  | cons component components ih =>
    simp only [foldlM_cons_eq_ok, descend_put_eq_ok_iff vacant bytes, ih]

/-- Writing a file moves no path. -/
theorem locate_put_eq_ok_iff {path : String} {place : Location} :
    (d.put location (.file bytes)).locate path = .ok place ↔ d.locate path = .ok place := by
  unfold locate
  -- Paths that no file system takes are refused whatever is on the disk.
  split_ifs
  · rfl
  · rfl
  · rfl
  · exact foldlM_descend_put_eq_ok_iff vacant bytes _

end Put

/-! ### Accesses -/

theorem read_eq_ok_iff {path : String} {bytes : ByteArray} :
    d.read path = .ok bytes ↔
      ∃ location, d.locate path = .ok location ∧ d.entryAt? location = some (.file bytes) := by
  unfold read
  rw [bind_eq_ok]
  refine exists_congr fun location => and_congr_right fun _ => ?_
  cases d.entryAt? location with
  | none => simp [throw, throwThe, MonadExceptOf.throw]
  | some entry => cases entry <;> simp [throw, throwThe, MonadExceptOf.throw, pure_eq_ok]

theorem write_eq_ok_iff {path : String} {bytes : ByteArray} {d' : Disk} :
    d.write path bytes = .ok d' ↔
      ∃ location, d.locate path = .ok location ∧ d.entryAt? location ≠ some .directory ∧
        d.put location (.file bytes) = d' := by
  unfold write
  rw [bind_eq_ok]
  refine exists_congr fun location => and_congr_right fun _ => ?_
  cases d.entryAt? location with
  | none => simp [pure_eq_ok]
  | some entry => cases entry <;> simp [throw, throwThe, MonadExceptOf.throw, pure_eq_ok]

/-! ### Disks as file stores -/

/-- A path leads to a file, or to where one can be made. -/
def HasPlace (d : Disk) (path : String) : Prop :=
  ∃ location, d.locate path = .ok location ∧ d.entryAt? location ≠ some .directory

theorem fileStore_read_eq_ok_iff {path : String} {bytes : ByteArray} :
    FileStore.read d path = .ok bytes ↔ d.read path = .ok bytes := by
  change (d.read path).mapError DiskError.message = .ok bytes ↔ _
  cases d.read path <;> simp [Except.mapError]

/-- A write puts a file where the path leads, or is refused and changes nothing. -/
theorem fileStore_write_cases (d : Disk) (path : String) (bytes : ByteArray) :
    (∃ reason, FileStore.write d path bytes = (some reason, d) ∧ ¬ d.HasPlace path) ∨
      ∃ location, d.locate path = .ok location ∧ d.entryAt? location ≠ some .directory ∧
        FileStore.write d path bytes = (none, d.put location (.file bytes)) := by
  cases written : d.write path bytes with
  | ok d' =>
    obtain ⟨location, leads, vacant, rfl⟩ := write_eq_ok_iff.mp written
    refine .inr ⟨location, leads, vacant, ?_⟩
    simp only [FileStore.write, written]
  | error e =>
    refine .inl ⟨e.message, ?_, ?_⟩
    · simp only [FileStore.write, written]
    · rintro ⟨location, leads, vacant⟩
      cases written.symm.trans (write_eq_ok_iff.mpr ⟨location, leads, vacant, rfl⟩)

theorem HasPlace.fileStore_write {path : String} (place : d.HasPlace path) (bytes : ByteArray) :
    ∃ location, d.locate path = .ok location ∧ d.entryAt? location ≠ some .directory ∧
      FileStore.write d path bytes = (none, d.put location (.file bytes)) := by
  obtain ⟨-, -, refused⟩ | written := d.fileStore_write_cases path bytes
  · exact absurd place refused
  · exact written

theorem HasPlace.of_read {path : String} {bytes : ByteArray} (found : d.read path = .ok bytes) :
    d.HasPlace path := by
  obtain ⟨location, leads, entry⟩ := read_eq_ok_iff.mp found
  exact ⟨location, leads, by simp [entry]⟩

/-- Files on a disk are reliable. -/
theorem isReliable (path : String) :
    FileStore.IsReliable (fun d : Disk => d.HasPlace path) path where
  readable := by
    rintro d ⟨location, leads, vacant⟩ there
    have present : (d.entryAt? location).isSome = true := by
      simpa only [FileStore.contains, contains, leads] using there
    obtain ⟨entry, at_location⟩ := Option.isSome_iff_exists.mp present
    cases entry with
    | directory => exact absurd at_location vacant
    | file bytes =>
      have found := read_eq_ok_iff.mpr ⟨location, leads, at_location⟩
      exact ⟨bytes, fileStore_read_eq_ok_iff.mpr found⟩
  accepts := by
    intro d bytes place
    obtain ⟨location, -, -, written⟩ := place.fileStore_write bytes
    rw [written]
  good_write := by
    intro d bytes place
    obtain ⟨location, leads, vacant, written⟩ := place.fileStore_write bytes
    rw [written]
    refine ⟨location, (locate_put_eq_ok_iff vacant bytes).mpr leads, ?_⟩
    simp [entryAt?_put_self vacant]
  contains_write := by
    intro d bytes place
    obtain ⟨location, leads, vacant, written⟩ := place.fileStore_write bytes
    have still := (locate_put_eq_ok_iff vacant bytes).mpr leads
    rw [written]
    simp only [FileStore.contains, contains, still, entryAt?_put_self vacant, Option.isSome_some]
  read_write := by
    intro d bytes place
    obtain ⟨location, leads, vacant, written⟩ := place.fileStore_write bytes
    rw [written, fileStore_read_eq_ok_iff, read_eq_ok_iff]
    exact ⟨location, (locate_put_eq_ok_iff vacant bytes).mpr leads, entryAt?_put_self vacant _⟩

/-- Paths that lead to the same place still do after a write there. -/
theorem HasPlace.locate_write {path other : String} (place : d.HasPlace path)
    (same : d.locate path = d.locate other) (bytes : ByteArray) :
    (FileStore.write d path bytes).2.locate path =
      (FileStore.write d path bytes).2.locate other := by
  obtain ⟨location, leads, vacant, written⟩ := place.fileStore_write bytes
  rw [written]
  exact ((locate_put_eq_ok_iff vacant bytes).mpr leads).trans
    ((locate_put_eq_ok_iff vacant bytes).mpr (same ▸ leads)).symm

/-- There is a file at one path, and another path leads elsewhere. -/
structure IsApart (d : Disk) (path other : String) : Prop where
  found : ∃ content, d.read other = .ok content
  elsewhere : d.locate path ≠ d.locate other

/-- Writes to paths that lead elsewhere change no file, and the paths still lead elsewhere. -/
theorem IsApart.write {path other : String} (apart : d.IsApart path other) (bytes : ByteArray) :
    (FileStore.write d path bytes).2.IsApart path other ∧
      (FileStore.write d path bytes).2.read other = d.read other := by
  obtain ⟨⟨content, found⟩, elsewhere⟩ := apart
  obtain ⟨reason, refused, -⟩ | ⟨location, leads, vacant, written⟩ :=
    d.fileStore_write_cases path bytes
  · rw [refused]
    exact ⟨⟨⟨content, found⟩, elsewhere⟩, rfl⟩
  · obtain ⟨place, leads', entry⟩ := read_eq_ok_iff.mp found
    have still := (locate_put_eq_ok_iff vacant bytes).mpr leads
    have still' := (locate_put_eq_ok_iff vacant bytes).mpr leads'
    -- Paths that lead to different places do not meet after the write, as none is moved.
    have distinct : place ≠ location := by
      rintro rfl
      exact elsewhere (leads.trans leads'.symm)
    have unchanged : (d.put location (.file bytes)).read other = .ok content :=
      read_eq_ok_iff.mpr ⟨place, still', (entryAt?_put_ne distinct _).trans entry⟩
    rw [written, found]
    refine ⟨⟨⟨content, unchanged⟩, ?_⟩, unchanged⟩
    rw [still, still']
    exact fun same => distinct (Except.ok.inj same).symm

theorem isReliable_apart (path other : String) :
    FileStore.IsReliable (fun d : Disk => d.HasPlace path ∧ d.IsApart path other) path :=
  (isReliable path).and fun bytes _ apart => (apart.write bytes).1

theorem leavesAlone (path other : String) :
    FileStore.LeavesAlone (fun d : Disk => d.HasPlace path ∧ d.IsApart path other) path other := by
  intro d bytes content good found
  rw [fileStore_read_eq_ok_iff] at found ⊢
  rw [(good.2.write bytes).2, found]

/-- A disk with a single file at its root. -/
def ofFile (name : String) (bytes : ByteArray) : Disk :=
  { entries := [([name], .file bytes)] }

end Disk

end Famicom
