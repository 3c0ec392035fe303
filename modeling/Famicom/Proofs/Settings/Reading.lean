import Famicom.Proofs.Settings.Spelling

/-!
# Settings are read from any text that names choices

## Main results

* `channelMembers_isReadBy`, `members_isReadBy` — the readers follow the vocabularies
* `SettingsText.reads` — a sound text gives the defaults with its choices in their places, and
  another is refused
* `overriddenBy_choices_eq` — only which choices are named matters
-/

namespace Famicom

open Json
open Audio (PerChannel)

namespace Settings

theorem channelMembers_isReadBy : channelVocabulary.IsReadBy channelMembers where
  names := rfl
  reads value := by
    obtain ⟨channel, heard⟩ := value
    cases channel
    all_goals
      refine ⟨_, rfl, fun b s _ => ?_⟩
      exact .replacing (.of_ok (readBool_append heard b s) trivial) _ _

theorem readChannels (c : ChannelsSpelling) (b : Blanks) (s : List Char) :
    ReadsIf (c.NamesAreText ∧ c.NoneTwice)
      (readRecord channelMembers (.uniform true) (b.text ++ (c.text ++ s))) (c.heard, s) := by
  cases c with
  | record r =>
    refine (r.reads channelMembers_isReadBy (.uniform true) b s).congr ?_
    exact ⟨fun h => ⟨h.1, fun _ _ => trivial, h.2⟩, fun h => ⟨h.spelled, h.once⟩⟩
  | list l =>
    refine .of_ok ?_ ⟨trivial, trivial⟩
    exact l.reads channelMembers_isReadBy (fun value => .bool value.2) (fun _ => trivial) _ b s

theorem members_isReadBy : vocabulary.IsReadBy members where
  names := rfl
  reads value := by
    -- Only the choice of voices has names inside.
    have always : True ∧ True := ⟨trivial, trivial⟩
    have small : (4294967296 : Nat) ≤ NumberText.wordLimit := by decide
    cases value with
    | sampleRate n =>
      refine ⟨_, rfl, fun b s ends => ?_⟩
      exact .replacing (.of_ok (readNatural_append small n b ends) always) _ _
    | channels c => exact ⟨_, rfl, fun b s _ => .replacing (readChannels c b s) _ _⟩
    | waveformCapacity n =>
      refine ⟨_, rfl, fun b s ends => ?_⟩
      exact .replacing (.of_ok (readNatural_append Nat.le.refl n b ends) always) _ _
    | saveDirectory t =>
      exact ⟨_, rfl, fun b s _ => .replacing (.of_ok (readString?_append t b s) always) _ _⟩
    | frameGuardTicks n =>
      refine ⟨_, rfl, fun b s ends => ?_⟩
      exact .replacing (.of_ok (readNatural_append Nat.le.refl n b ends) always) _ _
    | mmc1SerialGate gate =>
      exact ⟨_, rfl, fun b s _ => .replacing (.of_ok (readBool_append gate b s) always) _ _⟩

end Settings

open Settings

namespace SettingsText

/-- What the choices of a sound text make of the defaults. -/
theorem changes_eq (t : SettingsText) (sound : t.record.IsSound) :
    vocabulary.changes t.record.values {} = ({} : Settings).overriddenBy t.choices :=
  ext_get fun part =>
    (parts.get_changes sound.sound sound.once (fun _ _ => rfl) part).trans
      (get_overriddenBy {} t.choices part).symm

/-- A sound text is read as the defaults with its choices in their places. -/
theorem reads (t : SettingsText) :
    ReadsIf (t.NamesAreText ∧ t.NoneTwice) (ofText t.text)
      (({} : Settings).overriddenBy t.choices) := by
  have record := t.record.reads members_isReadBy {} t.before t.after.text
  have blank : skipBlanks t.after.text = [] := by
    have skipped := skipBlanks_append t.after []
    rwa [List.append_nil] at skipped
  refine ReadsIf.congr ?_ t.isSound_record_iff.symm
  constructor
  · intro sound
    rw [ofText, readDocument, text, String.toList_ofList, record.accepts sound, t.changes_eq sound]
    simp only [bind, Except.bind, blank, List.isEmpty_nil, if_true]
    rfl
  · intro unsound
    obtain ⟨flaw, refused⟩ := record.refuses unsound
    refine ⟨flaw, ?_⟩
    rw [ofText, readDocument, text, String.toList_ofList, refused]
    rfl

theorem parse_text_of_sound {t : SettingsText} (names : t.NamesAreText) (once : t.NoneTwice) :
    parse t.text = .ok (({} : Settings).overriddenBy t.choices) := by
  rw [parse, t.reads.accepts ⟨names, once⟩, Except.mapError]

theorem parse_text_of_unsound {t : SettingsText} (unsound : ¬ t.NamesAreText ∨ ¬ t.NoneTwice) :
    ∃ flaw, parse t.text = .error (.invalid none flaw) := by
  obtain ⟨flaw, refused⟩ := t.reads.refuses (not_and_or.mpr unsound)
  exact ⟨flaw, by rw [parse, refused, Except.mapError]⟩

theorem nodupKeys_choices {t : SettingsText} (once : t.NoneTwice) : t.choices.NodupKeys :=
  parts.nodupKeys_flatMap_brings once.1 fun value member =>
    Settings.nodupKeys_choices (once.2 value member)

/-- It only matters which choices are named. -/
theorem overriddenBy_choices_eq {t t' : SettingsText} (once : t.NoneTwice) (once' : t'.NoneTwice)
    (same : ∀ choice, choice ∈ t.choices ↔ choice ∈ t'.choices) (s : Settings) :
    s.overriddenBy t.choices = s.overriddenBy t'.choices := by
  refine ext_get fun part => ?_
  have found : t.choices.dlookup part = t'.choices.dlookup part := by
    refine Option.ext fun content => ?_
    have here := List.mem_dlookup_iff (a := part) (b := content) (nodupKeys_choices once)
    have there := List.mem_dlookup_iff (a := part) (b := content) (nodupKeys_choices once')
    exact here.trans ((same _).trans there.symm)
  rw [get_overriddenBy, get_overriddenBy, found]

end SettingsText

end Famicom
