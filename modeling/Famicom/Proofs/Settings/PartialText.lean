import Famicom.Proofs.Json.Writing
import Famicom.Proofs.Settings.Reading

/-!
# Texts that name some of the choices

## Main results

* `Settings.parse_text` — a text overrides the defaults by exactly the choices that it names
* `Settings.exists_parse_strange_eq_error` — the name of a member that means nothing still has to
  spell a text
-/

namespace Famicom.Settings

open Json

/-- A text overrides the defaults by exactly the choices that it names, whatever else it says and
in whatever order, if all its names spell texts. A name that spells none, or a choice that is named
twice, makes the text invalid. -/
theorem parse_text (t : SettingsText) :
    (t.NamesAreText → t.NoneTwice →
      parse t.text = .ok (({} : Settings).overriddenBy t.choices)) ∧
    (¬ t.NamesAreText ∨ ¬ t.NoneTwice → ∃ flaw, parse t.text = .error (.invalid none flaw)) ∧
    ∀ t' : SettingsText, t.NamesAreText → t.NoneTwice → t'.NamesAreText → t'.NoneTwice →
      (∀ choice, choice ∈ t.choices ↔ choice ∈ t'.choices) → parse t.text = parse t'.text := by
  refine ⟨SettingsText.parse_text_of_sound, SettingsText.parse_text_of_unsound, ?_⟩
  intro t' names once names' once' same
  rw [SettingsText.parse_text_of_sound names once, SettingsText.parse_text_of_sound names' once',
    SettingsText.overriddenBy_choices_eq once once' same]

/-- One voice is silent, MMC1 boards have their gate, and another member means nothing. -/
def someMembers : List (Member (Content Spelling)) := [
  writtenMember 0 "colour" (.unknown nullText .null),
  writtenMember 0 "channels"
    (.known (.channels (.record (.written channelVocabulary 1 [(.dmc, false)])))),
  writtenMember 0 "mmc1_serial_gate" (.known (.mmc1SerialGate true))]

theorem isNamed_someMembers : ∀ m ∈ someMembers, vocabulary.IsNamed m := by
  simp only [someMembers, List.forall_mem_cons]
  refine ⟨fun name spelled => ?_, name?_writtenMember .., name?_writtenMember ..,
    List.forall_mem_nil _⟩
  rw [name?_writtenMember] at spelled
  cases spelled
  decide

/-- A text with these members in one order or the other. -/
def someText (reverse : Bool) : SettingsText where
  before := .none
  record :=
    { members := if reverse then someMembers.reverse else someMembers
      finish := .none
      named := fun m member => isNamed_someMembers m (by cases reverse <;> simpa using member) }
  after := .none

theorem values_someText (reverse : Bool) : (someText reverse).record.values =
    if reverse then [.mmc1SerialGate true,
      .channels (.record (.written channelVocabulary 1 [(.dmc, false)]))]
    else [.channels (.record (.written channelVocabulary 1 [(.dmc, false)])),
      .mmc1SerialGate true] := by
  cases reverse <;> rfl

theorem namesAreText_someText (reverse : Bool) : (someText reverse).NamesAreText := by
  constructor
  · have spelled : ∀ m ∈ someMembers, m.name?.isSome = true := by
      simp only [someMembers, List.forall_mem_cons, name?_writtenMember]
      exact ⟨rfl, rfl, rfl, List.forall_mem_nil _⟩
    exact fun m member => spelled m (by cases reverse <;> simpa [someText] using member)
  · have inside : ChannelsSpelling.NamesAreText
        (.record (.written channelVocabulary 1 [(.dmc, false)])) :=
      RecordSpelling.namesAreText_written 1 _
    rw [values_someText]
    cases reverse
    · exact List.forall_mem_cons.mpr ⟨inside, List.forall_mem_singleton.mpr trivial⟩
    · exact List.forall_mem_cons.mpr ⟨trivial, List.forall_mem_singleton.mpr inside⟩

theorem noneTwice_someText (reverse : Bool) : (someText reverse).NoneTwice := by
  have inside : ChannelsSpelling.NoneTwice
      (.record (.written channelVocabulary 1 [(.dmc, false)])) := List.nodup_singleton _
  constructor
  · rw [RecordSpelling.NoneTwice, values_someText]
    cases reverse <;> decide
  · rw [values_someText]
    cases reverse
    · exact List.forall_mem_cons.mpr ⟨inside, List.forall_mem_singleton.mpr trivial⟩
    · exact List.forall_mem_cons.mpr ⟨trivial, List.forall_mem_singleton.mpr inside⟩

/-- A text that makes a choice twice. -/
def twiceText : SettingsText where
  before := .none
  record := .written vocabulary 0 [.mmc1SerialGate true, .mmc1SerialGate false]
  after := .none

/-- One voice is silent and MMC1 boards have their gate, in one order of the members and in the
other; and a gate that is chosen twice is refused. -/
theorem parse_someText :
    parse (someText false).text =
        .ok { channels := ⟨true, true, true, true, false⟩, mmc1SerialGate := true } ∧
      parse (someText true).text = parse (someText false).text ∧
      ∃ flaw, parse twiceText.text = .error (.invalid none flaw) := by
  have names := namesAreText_someText
  have once := noneTwice_someText
  have twice : ¬ (["mmc1_serial_gate", "mmc1_serial_gate"] : List String).Nodup := by decide
  refine ⟨(parse_text (someText false)).1 (names false) (once false), ?_,
    (parse_text twiceText).2.1 (.inr fun once => absurd once.1 twice)⟩
  refine (parse_text (someText true)).2.2 (someText false) (names true) (once true) (names false)
    (once false) fun choice => ?_
  have same : (someText true).choices = (someText false).choices.reverse := rfl
  rw [same, List.mem_reverse]

/-! ### Names that spell no text -/

/-- A zero as it is spelled. -/
theorem isValue_zero : IsValue ['0'] :=
  .number { whole := ⟨'0', [], List.forall_mem_singleton.mpr rfl⟩, isShort := fun _ => rfl }

/-- A member that means nothing, with half of a character for a name. -/
def strangeMember : Member (Content Spelling) where
  before := .none
  name := [.unit ⟨⟨'d', 13, rfl⟩, ⟨'8', 8, rfl⟩, ⟨'0', 0, rfl⟩, ⟨'0', 0, rfl⟩⟩]
  between := .none
  item := ⟨.none, .unknown ['0'] isValue_zero, .none⟩

theorem name?_strangeMember : strangeMember.name? = none := by
  decide

/-- A text with that member only. -/
def strangeText : SettingsText where
  before := .none
  record :=
    { members := [strangeMember]
      finish := .none
      named := fun m member => by
        obtain rfl := List.mem_singleton.mp member
        intro name spelled
        rw [name?_strangeMember] at spelled
        cases spelled }
  after := .none

/-- A text that names no choice, and so none twice, is refused if the name of a member that means
nothing spells no text. -/
theorem exists_parse_strange_eq_error :
    strangeText.text = "\x7b\"\\ud800\":0\x7d" ∧ strangeText.choices = [] ∧
      strangeText.NoneTwice ∧
      ∃ flaw, parse strangeText.text = .error (.invalid none flaw) := by
  have once : strangeText.NoneTwice := ⟨List.nodup_nil, nofun⟩
  refine ⟨rfl, rfl, once, SettingsText.parse_text_of_unsound (.inl fun names => ?_)⟩
  have spelled := names.1 strangeMember List.mem_cons_self
  rw [name?_strangeMember] at spelled
  cases spelled

end Famicom.Settings
