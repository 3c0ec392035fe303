/-!
# Paths

A path is text whose components are separated by `/`. Empty components and, except at the very
beginning, components `.` mean nothing.

## Main definitions

* `Path.parent` — the directory that a path is in
* `Path.fileName?`, `Path.stem?` — its last component, and that without its extension
* `Path.join` — a path below a directory
-/

namespace Famicom.Path

/-- The text between the separators. -/
def segments (path : String) : List (List Char) :=
  path.toList.splitOn '/'

/-- A segment that is no component: an empty one, or a `.` that other segments stand before. -/
def isBlank (before : List (List Char)) (segment : List Char) : Bool :=
  segment.isEmpty || (segment == ['.'] && !before.isEmpty)

/-- Drops the last segments of a reversed list that are no components. -/
def dropBlanks : List (List Char) → List (List Char)
  | [] => []
  | segment :: before => if isBlank before segment then dropBlanks before else segment :: before

/-- The last component with the segments before it, both reversed. -/
def splitLast? (path : String) : Option (List Char × List (List Char)) :=
  match dropBlanks (segments path).reverse with
  | [] => none
  | last :: before => some (last, before)

/-- A path that begins at the root. -/
def isAbsolute (path : String) : Bool :=
  path.toList.head? == some '/'

/-- The directory that a path is in, if the path has a component. -/
def parent? (path : String) : Option String := do
  let (_, before) ← splitLast? path
  match dropBlanks before with
  | [] => some (if isAbsolute path then "/" else "")
  | rest => some (String.ofList (['/'].intercalate rest.reverse))

/-- The last component of a path, if it names a file. -/
def fileName? (path : String) : Option String := do
  let (last, before) ← splitLast? path
  if last = ['.', '.'] || (last = ['.'] && before.isEmpty) then none
  else some (String.ofList last)

/-- A name without its extension. A name that begins with its only dot has none. -/
def withoutExtension (name : List Char) : List Char :=
  match name.reverse.dropWhile (· != '.') with
  | [] => name
  | [_] => name
  | _ :: stem => stem.reverse

/-- The last component of a path without its extension. -/
def stem? (path : String) : Option String :=
  (fileName? path).map fun name => String.ofList (withoutExtension name.toList)

/-- A path below a directory. An absolute path stays as it is. -/
def join (directory path : String) : String :=
  if isAbsolute path then path
  else if directory.isEmpty || directory.toList.getLast? == some '/' then directory ++ path
  else directory ++ "/" ++ path

end Famicom.Path
