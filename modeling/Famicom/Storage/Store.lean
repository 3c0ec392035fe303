/-!
# File stores

What the console needs of a file system: whether a path exists, the bytes of a file, and the
replacement of a file.

## Main definitions

* `FileStore` — a file system
-/

namespace Famicom

/-- A file system whose state is a `δ`. A refusal is a text that says why. -/
class FileStore (δ : Type) where
  /-- Something is at a path. -/
  contains : δ → String → Bool
  /-- The bytes of the file at a path. -/
  read : δ → String → Except String ByteArray
  /-- Replaces the file at a path, or makes it. A refused write may leave traces. -/
  write : δ → String → ByteArray → Option String × δ

end Famicom
