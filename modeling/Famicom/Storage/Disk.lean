import Famicom.Storage.Path
import Famicom.Storage.Store

/-!
# Disks in memory

A disk is a tree of directories and files with a current directory. Every entry stands under the
names that lead to it from the root, so a path means the same entry however it is spelled.

## Main definitions

* `Disk` — the tree
* `Disk.locate` — the entry that a path means
* `Disk.read`, `Disk.write`, `Disk.contains` — access to files
* `Disk.makeDirectory`, `Disk.removeTree` — changes of the tree
-/

namespace Famicom

/-- An entry of a disk. -/
inductive DiskEntry where
  | directory
  | file (bytes : ByteArray)

/-- Why a disk refuses an access. -/
inductive DiskError where
  | notFound
  | notADirectory
  | isADirectory
  | nameTooLong
  | invalidName
  deriving DecidableEq, Repr

/-- The text of a refusal. -/
def DiskError.message : DiskError → String
  | .notFound => "No such file or directory"
  | .notADirectory => "Not a directory"
  | .isADirectory => "Is a directory"
  | .nameTooLong => "File name too long"
  | .invalidName => "file name contained an unexpected NUL byte"

/-- The names that lead from the root to an entry. -/
abbrev Location := List String

/-- A tree of directories and files. The root is always a directory. -/
structure Disk where
  entries : List (Location × DiskEntry) := []
  current : Location := []

namespace Disk

/-- The entry at a location. -/
def entryAt? (d : Disk) (location : Location) : Option DiskEntry :=
  if location.isEmpty then some .directory else d.entries.lookup location

/-- The longest name in bytes. -/
def longestName : Nat :=
  255

/-- The longest path in bytes. -/
def longestPath : Nat :=
  4095

/-- One component further, from a location that has to be a directory. -/
def descend (d : Disk) (location : Location) (component : String) : Except DiskError Location :=
  match d.entryAt? location with
  | none => .error .notFound
  | some (.file _) => .error .notADirectory
  | some .directory =>
    if component = "" || component = "." then .ok location
    else if component = ".." then .ok location.dropLast
    else if longestName < component.utf8ByteSize then .error .nameTooLong
    else .ok (location ++ [component])

/-- Where a path begins, and its components. -/
def route (d : Disk) (path : String) : Location × List String :=
  (if Path.isAbsolute path then [] else d.current, (Path.segments path).map String.ofList)

/-- The location that a path means. All but its last component have to exist. -/
def locate (d : Disk) (path : String) : Except DiskError Location :=
  if path.toList.contains '\x00' then .error .invalidName
  else if path.isEmpty then .error .notFound
  else if longestPath < path.utf8ByteSize then .error .nameTooLong
  else
    let (start, components) := d.route path
    components.foldlM d.descend start

/-- The bytes of the file at a path. -/
def read (d : Disk) (path : String) : Except DiskError ByteArray := do
  match d.entryAt? (← d.locate path) with
  | none => throw .notFound
  | some .directory => throw .isADirectory
  | some (.file bytes) => pure bytes

/-- Something is at a path. -/
def contains (d : Disk) (path : String) : Bool :=
  match d.locate path with
  | .ok location => (d.entryAt? location).isSome
  | .error _ => false

/-- Puts an entry at a location. -/
def put (d : Disk) (location : Location) (entry : DiskEntry) : Disk :=
  { d with entries := (location, entry) :: d.entries.filter (·.1 != location) }

/-- Replaces the file at a path, or makes it in a directory that exists. -/
def write (d : Disk) (path : String) (bytes : ByteArray) : Except DiskError Disk := do
  let location ← d.locate path
  match d.entryAt? location with
  | some .directory => throw .isADirectory
  | _ => pure (d.put location (.file bytes))

/-- One component further, making the directory if there is none. -/
def descendMaking (place : Disk × Location) (component : String) :
    Except DiskError (Disk × Location) := do
  let (d, location) := place
  let location ← d.descend location component
  match d.entryAt? location with
  | none => pure (d.put location .directory, location)
  | some .directory => pure (d, location)
  | some (.file _) => throw .notADirectory

/-- Makes the directory at a path, with all directories on the way. -/
def makeDirectory (d : Disk) (path : String) : Except DiskError Disk := do
  let (start, components) := d.route path
  let (d, _) ← components.foldlM descendMaking (d, start)
  pure d

/-- Makes or replaces a file, with all directories on the way. -/
def writeMakingDirectories (d : Disk) (path : String) (bytes : ByteArray) :
    Except DiskError Disk := do
  let d ← match Path.parent? path with
    | none | some "" => pure d
    | some directory => d.makeDirectory directory
  d.write path bytes

/-- Removes what is at a path and below it. -/
def removeTree (d : Disk) (path : String) : Except DiskError Disk := do
  let location ← d.locate path
  pure { d with entries := d.entries.filter fun entry => !location.isPrefixOf entry.1 }

/-- A disk is a file store. -/
instance : FileStore Disk where
  contains := contains
  read d path := (d.read path).mapError DiskError.message
  write d path bytes :=
    match d.write path bytes with
    | .ok d => (none, d)
    | .error e => (some e.message, d)

end Disk

end Famicom
