import Famicom.Inspector.Report

/-!
# The command line of the inspector

The inspector takes the path of one image and may be asked for JSON or for help.

## Main definitions

* `Request` — what the arguments ask for
* `Request.ofArguments` — reads the arguments from left to right
* `Failure` — why there is no answer
* `Outcome` — exit code and output
* `run` — the outcome for arguments, given how to read a file
-/

namespace Famicom.Inspector

/-- What the arguments ask for. -/
inductive Request where
  | help
  | inspect (path : String) (json : Bool)
  deriving DecidableEq, Repr

/-- Why there is no answer. -/
inductive Failure where
  | unknownArgument (argument : String)
  | extraPath (path : String)
  | missingPath
  | unreadable (path reason : String)
  | badHeader (path : String) (error : LoadError)
  | unusable (path : String) (error : LoadError)
  deriving DecidableEq, Repr

namespace Failure

/-- The reference to the help text. -/
def hint : String :=
  "\nUse --help to view supported options."

/-- What went wrong. -/
def summary : Failure → String
  | .unknownArgument argument => s!"unknown argument: {argument}" ++ hint
  | .extraPath path => s!"only one ROM path may be given (extra: {path})"
  | .missingPath => "missing ROM path" ++ hint
  | .unreadable path _ => s!"failed to read {path}"
  | .badHeader path _ => s!"bad header in {path}"
  | .unusable path _ => s!"failed to load {path}"

/-- Why it went wrong, if there is more to say. -/
def cause? : Failure → Option String
  | .unreadable _ reason => some reason
  | .badHeader _ error => some error.message
  | .unusable _ error => some error.message
  | _ => none

/-- The text that is shown. -/
def message (f : Failure) : String :=
  match f.cause? with
  | none => s!"Error: {f.summary}\n"
  | some cause => s!"Error: {f.summary}\n\nCaused by:\n    {cause}\n"

end Failure

/-- The help text. -/
def helpText : String :=
  String.join ([
    "iNES header and bank inspector",
    "",
    "Usage:",
    "rom_info <rom.nes> [--json]",
    "",
    "Options:",
    "--json                         Print the report as JSON",
    "-h, --help                     Show this help",
    "",
    "Log level comes from RUST_LOG (default info)."].map (· ++ "\n"))

/-- Reads arguments from left to right, after the path and the choice of JSON found so far. -/
def readArguments (path : Option String) (json : Bool) : List String → Except Failure Request
  | [] =>
    match path with
    | some path => .ok (.inspect path json)
    | none => .error .missingPath
  | argument :: rest =>
    if argument = "--json" then readArguments path true rest
    else if argument = "--help" || argument = "-h" then .ok .help
    else if argument.startsWith "--" then .error (.unknownArgument argument)
    else if path.isSome then .error (.extraPath argument)
    else readArguments (some argument) json rest

/-- What arguments ask for. -/
def Request.ofArguments (arguments : List String) : Except Failure Request :=
  readArguments none false arguments

/-- The report on the bytes at a path. -/
def inspect (path : String) (bytes : Except String ByteArray) : Except Failure Report := do
  let image ← bytes.mapError (.unreadable path)
  let _ ← (Header.parse image).mapError (.badHeader path)
  let cartridge ← (Cartridge.ofImage image).mapError (.unusable path)
  pure (.ofCartridge path cartridge)

/-- What the inspector leaves behind. -/
structure Outcome where
  code : Nat := 0
  output : String := ""
  errors : String := ""
  deriving DecidableEq, Repr

/-- The outcome of a failure. -/
def Outcome.ofFailure (f : Failure) : Outcome :=
  { code := 1, errors := f.message }

/-- The outcome of an inspection of the bytes at a path. -/
def Outcome.ofInspection (path : String) (json : Bool) (bytes : Except String ByteArray) :
    Outcome :=
  match inspect path bytes with
  | .ok report => { output := if json then report.toJson else report.toText }
  | .error f => .ofFailure f

/-- The outcome for arguments. The bytes of a file are read in a monad. -/
def run {m : Type → Type} [Monad m] (read : String → m (Except String ByteArray))
    (arguments : List String) : m Outcome :=
  match Request.ofArguments arguments with
  | .ok .help => pure { output := helpText }
  | .ok (.inspect path json) => do pure (.ofInspection path json (← read path))
  | .error f => pure (.ofFailure f)

end Famicom.Inspector
