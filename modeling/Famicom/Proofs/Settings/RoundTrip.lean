import Famicom.Proofs.Json.Writing
import Famicom.Proofs.Settings.Reading

/-!
# Settings are read back as they were written

The text of settings is a sound text that names every choice, so it is read as the choices that were
written.

## Main definitions

* `Settings.written` — the text of settings, taken apart

## Main results

* `Settings.text_written` — it is the text that is written
* `Settings.parse_toText` — settings are read back from their text
-/

namespace Famicom

open Json
open Audio (Channel PerChannel)

namespace Settings

theorem boolText_eq_layOut (value : Bool) (depth : Nat) :
    boolText value = (Document.bool value).layOut depth := by
  cases value <;> rfl

/-- The choice of voices as it is written. -/
def ChannelsSpelling.written (heard : PerChannel Bool) : ChannelsSpelling :=
  .record (.written channelVocabulary 1 heard.entries)

theorem ChannelsSpelling.text_written (heard : PerChannel Bool) :
    (written heard).text = (documentOfChannels heard).layOut 1 :=
  RecordSpelling.text_written 1 heard.entries (fun value => .bool value.2) (List.cons_ne_nil _ _)
    fun value _ => boolText_eq_layOut value.2 2

theorem toNat_lt_wordLimit (n : UInt64) : n.toNat < NumberText.wordLimit :=
  n.toNat_lt

/-- The choices of settings as they are written. -/
def spellings (s : Settings) : List Spelling := [
  .sampleRate (.written s.sampleRate.toNat_lt),
  .channels (.written s.channels),
  .waveformCapacity (.written (toNat_lt_wordLimit s.waveformCapacity)),
  .saveDirectory (s.saveDirectory.map fun directory => .written directory.toList),
  .frameGuardTicks (.written (toNat_lt_wordLimit s.frameGuardTicks)),
  .mmc1SerialGate s.mmc1SerialGate]

/-- What is written for a choice of settings. -/
def documentOf (s : Settings) : Field → Document
  | .sampleRate => .number s.sampleRate.toNat
  | .channels => documentOfChannels s.channels
  | .waveformCapacity => .number s.waveformCapacity.toNat
  | .saveDirectory => .ofString? s.saveDirectory
  | .frameGuardTicks => .number s.frameGuardTicks.toNat
  | .mmc1SerialGate => .bool s.mmc1SerialGate

/-- The text of settings, taken apart. -/
def written (s : Settings) : SettingsText where
  before := .none
  record := .written vocabulary 0 s.spellings
  after := .none

theorem textOfString?_eq_layOut (text : Option String) (depth : Nat) :
    textOfString? (text.map fun text => .written text.toList) =
      (Document.ofString? text).layOut depth := by
  cases text with
  | none => rfl
  | some text => exact TextSpelling.text_written text.toList

/-- Every choice is spelled as it is written. -/
theorem text_spelling (s : Settings) : ∀ value ∈ s.spellings,
    vocabulary.text value = (s.documentOf value.field).layOut 1 := by
  simp only [spellings, List.forall_mem_cons]
  refine ⟨?_, ?_, ?_, ?_, ?_, ?_, nofun⟩
  · exact NaturalSpelling.text_written _
  · exact ChannelsSpelling.text_written s.channels
  · exact NaturalSpelling.text_written _
  · exact textOfString?_eq_layOut s.saveDirectory 1
  · exact NaturalSpelling.text_written _
  · exact boolText_eq_layOut s.mmc1SerialGate 1

theorem text_written (s : Settings) : s.written.text = s.toText := by
  have record := RecordSpelling.text_written (v := vocabulary) 0 s.spellings
    (fun value => s.documentOf value.field) (List.cons_ne_nil _ _) s.text_spelling
  rw [SettingsText.text, written, record]
  exact congrArg String.ofList (List.append_nil _)

theorem namesAreText_written (s : Settings) : s.written.NamesAreText := by
  refine ⟨RecordSpelling.namesAreText_written 0 s.spellings, ?_⟩
  rw [written, RecordSpelling.values_written]
  simp only [spellings, List.forall_mem_cons]
  exact ⟨trivial, RecordSpelling.namesAreText_written 1 s.channels.entries, trivial, trivial,
    trivial, trivial, nofun⟩

theorem noneTwice_written (s : Settings) : s.written.NoneTwice := by
  constructor
  · rw [written, RecordSpelling.NoneTwice, RecordSpelling.values_written]
    exact vocabulary.distinct
  · rw [written, RecordSpelling.values_written]
    simp only [spellings, List.forall_mem_cons]
    refine ⟨trivial, ?_, trivial, trivial, trivial, trivial, nofun⟩
    rw [Spelling.NoneTwice, ChannelsSpelling.written, ChannelsSpelling.NoneTwice,
      RecordSpelling.NoneTwice, RecordSpelling.values_written]
    exact channelVocabulary.distinct

/-- All parts of settings. -/
def Part.all : List Part :=
  .sampleRate :: Channel.all.map .heard ++
    [.waveformCapacity, .saveDirectory, .frameGuardTicks, .mmc1SerialGate]

/-- The choices that are written are all there are. -/
theorem choices_written (s : Settings) :
    s.written.choices = Part.all.map fun part => ⟨part, s.get part⟩ := by
  have channels : (ChannelsSpelling.written s.channels).choices =
      Channel.all.map fun channel => ⟨.heard channel, s.get (.heard channel)⟩ := by
    rw [ChannelsSpelling.choices, ChannelsSpelling.written, ChannelsSpelling.values,
      RecordSpelling.values_written]
    rfl
  have directory : (s.saveDirectory.map fun directory =>
      TextSpelling.written directory.toList).map TextSpelling.value = s.saveDirectory := by
    cases s.saveDirectory with
    | none => rfl
    | some directory => exact congrArg some String.ofList_toList
  rw [SettingsText.choices, written, RecordSpelling.values_written]
  simp only [spellings, List.flatMap_cons, List.flatMap_nil, Spelling.choices,
    NaturalSpelling.value_written, UInt32.ofNat_toNat, UInt64.ofNat_toNat, channels, directory]
  rfl

theorem dlookup_written (s : Settings) (part : Part) :
    s.written.choices.dlookup part = some (s.get part) := by
  rw [choices_written]
  cases part with
  | heard channel => cases channel <;> rfl
  | _ => rfl

theorem overriddenBy_choices_written (s t : Settings) : t.overriddenBy s.written.choices = s :=
  ext_get fun part => by rw [get_overriddenBy, dlookup_written, Option.getD_some]

theorem ofText_toText (s : Settings) : ofText s.toText = .ok s := by
  have read := s.written.reads.accepts ⟨s.namesAreText_written, s.noneTwice_written⟩
  rwa [text_written, overriddenBy_choices_written] at read

/-- Settings are read back from their text. -/
theorem parse_toText (s : Settings) : parse s.toText = .ok s := by
  rw [parse, ofText_toText, Except.mapError]

end Settings

end Famicom
