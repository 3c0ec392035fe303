import Famicom.Proofs.Json.Reading
import Famicom.Proofs.Json.Scalars
import Famicom.Settings.Text

/-!
# Texts of settings

A text of settings is a record of the grammar: some of the choices, in any order and any spelling,
among members that mean nothing. The choice of voices is itself such a record, or a list of truth
values for the first voices.

Two things make such a text unsound: a name, known or not, that spells no text, because half of a
character stands alone in it, and a choice that is named twice in one record.

## Main definitions

* `Settings.Part`, `Settings.get` — what is chosen, with the voices one by one
* `Settings.overriddenBy` — settings in which choices replace others
* `Settings.channelVocabulary`, `Settings.vocabulary` — the members of both records
* `Settings.Spelling`, `SettingsText` — choices as they are spelled, and texts of settings
* `SettingsText.NamesAreText`, `SettingsText.NoneTwice` — what makes a text sound
* `SettingsText.choices` — the choices that a text names

## Main results

* `Settings.ChannelsSpelling.get_heard` — a voice is heard unless it is named otherwise
* `Settings.parts` — settings have parts, each of which belongs to one member
* `SettingsText.isSound_record_iff` — the record of a text is sound if nothing makes the text
  unsound
-/

namespace Famicom

open Json
open Audio (Channel PerChannel)

/-! ### Choices -/

namespace Settings

/-- What is chosen. -/
inductive Part where
  | sampleRate
  | heard (channel : Channel)
  | waveformCapacity
  | saveDirectory
  | frameGuardTicks
  | mmc1SerialGate
  deriving DecidableEq, Repr

/-- What there is to choose from. -/
@[reducible]
def Part.Value : Part → Type
  | .sampleRate => UInt32
  | .heard _ => Bool
  | .waveformCapacity => UInt64
  | .saveDirectory => Option String
  | .frameGuardTicks => UInt64
  | .mmc1SerialGate => Bool

/-- A choice. -/
abbrev Choice : Type :=
  Sigma Part.Value

/-- What settings choose. -/
def get (s : Settings) : (part : Part) → part.Value
  | .sampleRate => s.sampleRate
  | .heard channel => s.channels.get channel
  | .waveformCapacity => s.waveformCapacity
  | .saveDirectory => s.saveDirectory
  | .frameGuardTicks => s.frameGuardTicks
  | .mmc1SerialGate => s.mmc1SerialGate

/-- The settings in which choices replace those that were made. -/
def overriddenBy (s : Settings) (choices : List Choice) : Settings where
  sampleRate := (choices.dlookup .sampleRate).getD s.sampleRate
  channels :=
    { pulse1 := (choices.dlookup (.heard .pulse1)).getD s.channels.pulse1
      pulse2 := (choices.dlookup (.heard .pulse2)).getD s.channels.pulse2
      triangle := (choices.dlookup (.heard .triangle)).getD s.channels.triangle
      noise := (choices.dlookup (.heard .noise)).getD s.channels.noise
      dmc := (choices.dlookup (.heard .dmc)).getD s.channels.dmc }
  waveformCapacity := (choices.dlookup .waveformCapacity).getD s.waveformCapacity
  saveDirectory := (choices.dlookup .saveDirectory).getD s.saveDirectory
  frameGuardTicks := (choices.dlookup .frameGuardTicks).getD s.frameGuardTicks
  mmc1SerialGate := (choices.dlookup .mmc1SerialGate).getD s.mmc1SerialGate

theorem get_overriddenBy (s : Settings) (choices : List Choice) (part : Part) :
    (s.overriddenBy choices).get part = (choices.dlookup part).getD (s.get part) := by
  cases part with
  | heard channel => cases channel <;> rfl
  | _ => rfl

/-- Settings that choose the same are the same. -/
theorem ext_get {s t : Settings} (same : ∀ part, s.get part = t.get part) : s = t := by
  obtain ⟨sampleRate, ⟨pulse1, pulse2, triangle, noise, dmc⟩, waveformCapacity, saveDirectory,
    frameGuardTicks, mmc1SerialGate⟩ := s
  obtain rfl := same .sampleRate
  obtain rfl := same (.heard .pulse1)
  obtain rfl := same (.heard .pulse2)
  obtain rfl := same (.heard .triangle)
  obtain rfl := same (.heard .noise)
  obtain rfl := same (.heard .dmc)
  obtain rfl := same .waveformCapacity
  obtain rfl := same .saveDirectory
  obtain rfl := same .frameGuardTicks
  obtain rfl := same .mmc1SerialGate
  rfl

end Settings

/-! ### Voices -/

namespace Settings

/-- The name of a voice in a text. -/
def channelName : Channel → String
  | .pulse1 => "pulse1"
  | .pulse2 => "pulse2"
  | .triangle => "triangle"
  | .noise => "noise"
  | .dmc => "dmc"

theorem channelName_inj {c c' : Channel} : channelName c = channelName c' ↔ c = c' := by
  cases c <;> cases c' <;> decide

/-- The members of the choice of voices: a voice, and whether it is heard. -/
def channelVocabulary : Vocabulary (Channel × Bool) (PerChannel Bool) where
  names := Channel.all.map channelName
  distinct := by decide
  name value := channelName value.1
  name_mem value := List.mem_map_of_mem (by cases value.1 <;> decide)
  text value := boolText value.2
  IsSound _ := True
  change value heard := heard.set value.1 value.2

/-- The voices are parts of the choice of voices, each with a member of its own. -/
def channelParts : channelVocabulary.Parts Channel fun _ => Bool where
  get := PerChannel.get
  owner := channelName
  brings value := [⟨value.1, value.2⟩]
  unbrought _ := true
  owner_of_mem value choice member := by
    rw [List.mem_singleton.mp member]
    rfl
  get_change_own value heard channel _ own := by
    obtain rfl := channelName_inj.mp own
    rw [List.dlookup_cons_eq]
    exact (heard.get_set value.1 value.1 value.2).trans (if_pos rfl)
  get_change_other value heard channel other :=
    (heard.get_set value.1 channel value.2).trans
      (if_neg fun same => other (channelName_inj.mpr same))

/-- A choice of voices as it is spelled. -/
inductive ChannelsSpelling where
  | record (r : RecordSpelling channelVocabulary)
  | list (l : ListSpelling channelVocabulary)

namespace ChannelsSpelling

/-- The text of a choice of voices. -/
def text : ChannelsSpelling → List Char
  | record r => r.text
  | list l => l.text

/-- The voices that are named, and whether they are heard. -/
def values : ChannelsSpelling → List (Channel × Bool)
  | record r => r.values
  | list l => l.values

/-- All names spell texts. -/
def NamesAreText : ChannelsSpelling → Prop
  | record r => r.NamesAreText
  | list _ => True

/-- No voice is named twice. -/
def NoneTwice : ChannelsSpelling → Prop
  | record r => r.NoneTwice
  | list _ => True

/-- The voices that are heard. -/
def heard (c : ChannelsSpelling) : PerChannel Bool :=
  channelVocabulary.changes c.values (.uniform true)

/-- The choice of every voice that is named. -/
def choices (c : ChannelsSpelling) : List Choice :=
  c.values.map fun value => ⟨.heard value.1, value.2⟩

theorem nodup_values {c : ChannelsSpelling} (once : c.NoneTwice) :
    (c.values.map channelVocabulary.name).Nodup := by
  cases c with
  | record r => exact once
  | list l =>
    rw [values, ListSpelling.values, List.map_map]
    exact l.inOrder.sublist.nodup channelVocabulary.distinct

theorem nodupKeys_choices {c : ChannelsSpelling} (once : c.NoneTwice) :
    c.choices.NodupKeys := by
  have names := nodup_values once
  have keys : c.choices.keys = (c.values.map Prod.fst).map Part.heard := by
    rw [choices, List.keys, List.map_map, List.map_map]
    rfl
  have channels : (c.values.map Prod.fst).Nodup := by
    refine List.Nodup.of_map channelName ?_
    rw [List.map_map]
    exact names
  rw [List.NodupKeys, keys]
  exact channels.map fun _ _ same => Part.heard.inj same

theorem dlookup_choices (c : ChannelsSpelling) (channel : Channel) :
    c.choices.dlookup (.heard channel) =
      (c.values.flatMap channelParts.brings).dlookup channel := by
  unfold choices
  induction c.values with
  | nil => rfl
  | cons value values ih =>
    rw [List.map_cons, List.flatMap_cons, List.dlookup_append]
    by_cases same : channel = value.1
    · subst same
      have brought : (channelParts.brings value).dlookup value.1 = some value.2 :=
        List.dlookup_cons_eq ..
      rw [List.dlookup_cons_eq, brought, Option.some_or]
    · have apart : Part.heard channel ≠ .heard value.1 := fun h => same (Part.heard.inj h)
      rw [List.dlookup_cons_ne _ (⟨.heard value.1, value.2⟩ : Choice) apart, ih,
        channelParts.dlookup_brings_eq_none fun own => same (channelName_inj.mp own),
        Option.none_or]

/-- A voice is heard unless it is named otherwise. -/
theorem get_heard {c : ChannelsSpelling} (once : c.NoneTwice) (channel : Channel) :
    c.heard.get channel = (c.choices.dlookup (.heard channel)).getD true := by
  have unnamed := PerChannel.get_uniform true channel
  have parts : c.heard.get channel = ((c.values.flatMap channelParts.brings).dlookup channel).getD
      ((PerChannel.uniform true).get channel) :=
    channelParts.get_changes (fun _ _ => trivial) (nodup_values once)
      (fun part _ => PerChannel.get_uniform true part) channel
  rw [parts, dlookup_choices, unnamed]

end ChannelsSpelling

/-! ### Texts -/

/-- A member of settings. -/
inductive Field where
  | sampleRate
  | channels
  | waveformCapacity
  | saveDirectory
  | frameGuardTicks
  | mmc1SerialGate
  deriving DecidableEq, Repr

namespace Field

/-- The members in their order. -/
def all : List Field :=
  [sampleRate, channels, waveformCapacity, saveDirectory, frameGuardTicks, mmc1SerialGate]

/-- The name of a member in a text. -/
def name : Field → String
  | sampleRate => "sample_rate"
  | channels => "channels"
  | waveformCapacity => "waveform_capacity"
  | saveDirectory => "save_dir"
  | frameGuardTicks => "frame_guard_ticks"
  | mmc1SerialGate => "mmc1_serial_gate"

theorem mem_all (field : Field) : field ∈ all := by
  cases field <;> decide

theorem name_inj {field field' : Field} : field.name = field'.name ↔ field = field' := by
  cases field <;> cases field' <;> decide

end Field

/-- The member that a part of settings belongs to. -/
def Part.field : Part → Field
  | sampleRate => .sampleRate
  | heard _ => .channels
  | waveformCapacity => .waveformCapacity
  | saveDirectory => .saveDirectory
  | frameGuardTicks => .frameGuardTicks
  | mmc1SerialGate => .mmc1SerialGate

/-- A choice as it is spelled. -/
inductive Spelling where
  | sampleRate (n : NaturalSpelling 4294967296)
  | channels (c : ChannelsSpelling)
  | waveformCapacity (n : NaturalSpelling NumberText.wordLimit)
  | saveDirectory (t : Option TextSpelling)
  | frameGuardTicks (n : NaturalSpelling NumberText.wordLimit)
  | mmc1SerialGate (gate : Bool)

namespace Spelling

/-- The member that a choice is spelled for. -/
def field : Spelling → Field
  | sampleRate _ => .sampleRate
  | channels _ => .channels
  | waveformCapacity _ => .waveformCapacity
  | saveDirectory _ => .saveDirectory
  | frameGuardTicks _ => .frameGuardTicks
  | mmc1SerialGate _ => .mmc1SerialGate

/-- The text of a choice. -/
def text : Spelling → List Char
  | sampleRate n => n.text
  | channels c => c.text
  | waveformCapacity n => n.text
  | saveDirectory t => textOfString? t
  | frameGuardTicks n => n.text
  | mmc1SerialGate gate => boolText gate

/-- All names in a choice spell texts. -/
def NamesAreText : Spelling → Prop
  | channels c => c.NamesAreText
  | _ => True

/-- No name comes twice in a choice. -/
def NoneTwice : Spelling → Prop
  | channels c => c.NoneTwice
  | _ => True

/-- What is chosen. -/
def choices : Spelling → List Choice
  | sampleRate n => [⟨.sampleRate, .ofNat n.value⟩]
  | channels c => c.choices
  | waveformCapacity n => [⟨.waveformCapacity, .ofNat n.value⟩]
  | saveDirectory t => [⟨.saveDirectory, t.map TextSpelling.value⟩]
  | frameGuardTicks n => [⟨.frameGuardTicks, .ofNat n.value⟩]
  | mmc1SerialGate gate => [⟨.mmc1SerialGate, gate⟩]

/-- The settings with a choice in its place. -/
def change (s : Settings) : Spelling → Settings
  | sampleRate n => { s with sampleRate := .ofNat n.value }
  | channels c => { s with channels := c.heard }
  | waveformCapacity n => { s with waveformCapacity := .ofNat n.value }
  | saveDirectory t => { s with saveDirectory := t.map TextSpelling.value }
  | frameGuardTicks n => { s with frameGuardTicks := .ofNat n.value }
  | mmc1SerialGate gate => { s with mmc1SerialGate := gate }

end Spelling

/-- The members of settings. -/
def vocabulary : Vocabulary Spelling Settings where
  names := Field.all.map Field.name
  distinct := by decide
  name value := value.field.name
  name_mem value := List.mem_map_of_mem (Field.mem_all value.field)
  text := Spelling.text
  IsSound value := value.NamesAreText ∧ value.NoneTwice
  change value s := value.change s

theorem field_of_mem_choices {value : Spelling} {choice : Choice}
    (member : choice ∈ value.choices) : choice.1.field = value.field := by
  cases value with
  | channels c =>
    obtain ⟨named, -, rfl⟩ := List.mem_map.mp member
    rfl
  | _ =>
    rw [List.mem_singleton.mp member]
    rfl

theorem nodupKeys_choices {value : Spelling} (once : value.NoneTwice) :
    value.choices.NodupKeys := by
  cases value with
  | channels c => exact c.nodupKeys_choices once
  | _ => exact List.nodup_singleton _

/-- Settings have their parts; those that belong to the choice of voices are set back by it. -/
def parts : vocabulary.Parts Part Part.Value where
  get := get
  owner part := part.field.name
  brings := Spelling.choices
  unbrought := get {}
  owner_of_mem value choice member := congrArg Field.name (field_of_mem_choices member)
  get_change_own value s part sound own := by
    have same : part.field = value.field := Field.name_inj.mp own
    cases value with
    | channels c =>
      cases part with
      -- Voices that the choice does not name are set back, whatever was chosen before.
      | heard channel => exact (c.get_heard sound.2 channel).trans (by cases channel <;> rfl)
      | _ => cases same
    | _ => cases part <;> first | rfl | cases same
  get_change_other value s part other := by
    have differs : part.field ≠ value.field := fun same => other (congrArg Field.name same)
    cases value <;> cases part <;> first | rfl | exact absurd rfl differs

end Settings

/-- A text of settings. -/
structure SettingsText where
  before : Blanks
  record : RecordSpelling Settings.vocabulary
  after : Blanks

namespace SettingsText

/-- The text itself. -/
def text (t : SettingsText) : String :=
  String.ofList (t.before.text ++ (t.record.text ++ t.after.text))

/-- All names, also those in the choice of voices, spell texts. -/
def NamesAreText (t : SettingsText) : Prop :=
  t.record.NamesAreText ∧ ∀ value ∈ t.record.values, value.NamesAreText

/-- No known name comes twice, nor in the choice of voices. -/
def NoneTwice (t : SettingsText) : Prop :=
  t.record.NoneTwice ∧ ∀ value ∈ t.record.values, value.NoneTwice

/-- The choices that a text names. -/
def choices (t : SettingsText) : List Settings.Choice :=
  t.record.values.flatMap Settings.Spelling.choices

theorem isSound_record_iff (t : SettingsText) :
    t.record.IsSound ↔ t.NamesAreText ∧ t.NoneTwice := by
  constructor
  · rintro ⟨spelled, sound, once⟩
    exact ⟨⟨spelled, fun value member => (sound value member).1⟩,
      ⟨once, fun value member => (sound value member).2⟩⟩
  · rintro ⟨⟨spelled, spelledInside⟩, ⟨once, onceInside⟩⟩
    exact ⟨spelled, fun value member => ⟨spelledInside value member, onceInside value member⟩, once⟩

end SettingsText

end Famicom
