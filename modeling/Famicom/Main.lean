import Famicom.Inspector.Command

/-!
# The inspector as a program
-/

namespace Famicom.Inspector

/-- The bytes of a file, or why they cannot be read. -/
def readFile (path : String) : IO (Except String ByteArray) := do
  try
    return .ok (← IO.FS.readBinFile path)
  catch e =>
    return .error (toString e)

end Famicom.Inspector

/-- Inspects the image that the arguments name. -/
def main (arguments : List String) : IO UInt32 := do
  let outcome ← Famicom.Inspector.run Famicom.Inspector.readFile arguments
  IO.print outcome.output
  IO.eprint outcome.errors
  return outcome.code.toUInt32
