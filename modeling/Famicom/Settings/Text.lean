import Famicom.Settings.Basic
import Famicom.Json.Document
import Famicom.Json.Record
import Famicom.Storage.Store

/-!
# Settings as text

Settings are written as a JSON record with a member for each choice. A text may leave out any of
them.

## Main definitions

* `Settings.toText` — the text of settings
* `Settings.ofText` — the settings of a text
* `Settings.openFile` — the settings in a file
* `SettingsError` — why a text or file is refused
-/

namespace Famicom

/-- Why settings cannot be read. -/
inductive SettingsError where
  /-- The file cannot be read as text. -/
  | unreadable (path reason : String)
  /-- The text, of a file if a path is given, has a flaw. -/
  | invalid (path : Option String) (flaw : Json.Flaw)
  deriving DecidableEq, Repr

/-- What could not be done, from the outside in. -/
def SettingsError.contexts : SettingsError → List String
  | .unreadable path _ => [s!"failed to read config {path}"]
  | .invalid none _ => ["invalid emulator config"]
  | .invalid (some path) _ => [s!"in {path}", "invalid emulator config"]

namespace Settings

open Json

/-- The choice of voices as a document. -/
def documentOfChannels (c : Audio.PerChannel Bool) : Document :=
  .ofMembers [
    ("pulse1", .bool c.pulse1),
    ("pulse2", .bool c.pulse2),
    ("triangle", .bool c.triangle),
    ("noise", .bool c.noise),
    ("dmc", .bool c.dmc)]

/-- Settings as a document. -/
def toDocument (s : Settings) : Document :=
  .ofMembers [
    ("sample_rate", .number s.sampleRate.toNat),
    ("channels", documentOfChannels s.channels),
    ("waveform_capacity", .number s.waveformCapacity.toNat),
    ("save_dir", .ofString? s.saveDirectory),
    ("frame_guard_ticks", .number s.frameGuardTicks.toNat),
    ("mmc1_serial_gate", .bool s.mmc1SerialGate)]

/-- The text of settings. -/
def toText (s : Settings) : String :=
  s.toDocument.pretty

/-- The members of the choice of voices. -/
def channelMembers : List (MemberReader (Audio.PerChannel Bool)) := [
  .replacing "pulse1" readBool fun heard c => { c with pulse1 := heard },
  .replacing "pulse2" readBool fun heard c => { c with pulse2 := heard },
  .replacing "triangle" readBool fun heard c => { c with triangle := heard },
  .replacing "noise" readBool fun heard c => { c with noise := heard },
  .replacing "dmc" readBool fun heard c => { c with dmc := heard }]

/-- The members of settings. -/
def members : List (MemberReader Settings) := [
  .replacing "sample_rate" (readNatural 4294967296) fun n s => { s with sampleRate := n.toUInt32 },
  .replacing "channels" (readRecord channelMembers (.uniform true)) fun c s =>
    { s with channels := c },
  .replacing "waveform_capacity" (readNatural NumberText.wordLimit) fun n s =>
    { s with waveformCapacity := n.toUInt64 },
  .replacing "save_dir" readString? fun directory s => { s with saveDirectory := directory },
  .replacing "frame_guard_ticks" (readNatural NumberText.wordLimit) fun n s =>
    { s with frameGuardTicks := n.toUInt64 },
  .replacing "mmc1_serial_gate" readBool fun gate s => { s with mmc1SerialGate := gate }]

/-- The settings of a text: the defaults, except for the members that the text brings. -/
def ofText (text : String) : Except Flaw Settings :=
  readDocument members {} text

/-- The settings of a text, or why it is refused. -/
def parse (text : String) : Except SettingsError Settings :=
  (ofText text).mapError (.invalid none)

/-- The settings in the file at a path. -/
def openFile {δ : Type} [FileStore δ] (path : String) (store : δ) : Except SettingsError Settings :=
  match FileStore.read store path with
  | .error reason => .error (.unreadable path reason)
  | .ok bytes =>
    match String.fromUTF8? bytes with
    | none => .error (.unreadable path "stream did not contain valid UTF-8")
    | some text => (ofText text).mapError (.invalid (some path))

end Settings

end Famicom
