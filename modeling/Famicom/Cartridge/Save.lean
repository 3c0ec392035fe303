import Famicom.Storage.Path
import Famicom.Storage.Store

/-!
# Battery saves

A cartridge with a battery keeps its RAM in a file. The first access to the file that fails ends
this; the cartridge goes on without.

A cartridge either has a file to write to or remembers why it has none, never both, which is why
`Persistence` is one type and not a path beside a warning.

## Main definitions

* `SaveWarning` — the access that failed
* `Persistence` — whether and where RAM is kept
* `Persistence.pathFor` — the file that belongs to an image
-/

namespace Famicom

/-- An access to a save file. -/
inductive SaveAccess where
  | read
  | write
  deriving DecidableEq, Repr

/-- An access to a save file that failed. -/
structure SaveWarning where
  access : SaveAccess
  path : String
  reason : String
  deriving DecidableEq, Repr

/-- The text of a warning. -/
def SaveWarning.message (w : SaveWarning) : String :=
  match w.access with
  | .read => s!"failed to read save {w.path}: {w.reason}"
  | .write => s!"failed to write save {w.path}: {w.reason}"

/-- Whether and where RAM is kept. -/
inductive Persistence where
  /-- There is nothing to keep, or nowhere to keep it. -/
  | unused
  /-- RAM is written to the file at a path. -/
  | file (path : String)
  /-- An access failed, and RAM is no longer kept. -/
  | failed (warning : SaveWarning)
  deriving DecidableEq, Repr

namespace Persistence

/-- The file that RAM is written to. -/
def path? : Persistence → Option String
  | .file path => some path
  | _ => none

/-- The access that failed. -/
def warning? : Persistence → Option SaveWarning
  | .failed warning => some warning
  | _ => none

/-- The extension of save files. -/
def extension : String :=
  ".sav"

/-- The save file of the image at a path, in a directory of its own or beside the image. -/
def pathFor (image : String) (directory : Option String) : String :=
  let name := (Path.stem? image).getD image ++ extension
  let directory := (directory <|> Path.parent? image).getD ""
  Path.join directory name

end Persistence

end Famicom
