import Famicom.Proofs.Json.Grammar
import Mathlib.Data.List.Nodup
import Mathlib.Data.List.Sigma

/-!
# Records with known and unknown members

A record of the grammar has members that are known and others that are not. What is known and how it
is spelled is a `Vocabulary`. A record is sound if every name spells a text and no known name comes
twice; then every known member makes its change, in the order of the text, and the others make none.

The record may have parts that belong to its members, such that a member changes its own parts only.
Then it does not matter in which order the members come: each part is what its member brings.

## Main definitions

* `Vocabulary` — the members that are known
* `RecordSpelling` — records with known and unknown members
* `RecordSpelling.NamesAreText`, `RecordSpelling.NoneTwice`, `RecordSpelling.IsSound` — what makes a
  record sound
* `ListSpelling` — lists that bring the values of the first members
* `Vocabulary.changes` — what known members make of a record
* `Vocabulary.Parts` — parts of the record that belong to members

## Main results

* `Vocabulary.isSoundAfter_cons_of_known`, `Vocabulary.isSoundAfter_cons_of_unknown` — soundness from
  member to member
* `Vocabulary.Parts.get_changes` — what members leave of every part
* `Vocabulary.Parts.nodupKeys_flatMap_brings` — no part is brought twice
-/

namespace Famicom.Json

/-- The members that the record for a `σ` knows. An `α` is such a member with a spelling of its
value. -/
structure Vocabulary (α σ : Type) where
  names : List String
  distinct : names.Nodup
  name : α → String
  name_mem : ∀ value, name value ∈ names
  /-- The spelling of the value. -/
  text : α → List Char
  /-- The value is sound itself. -/
  IsSound : α → Prop
  /-- What becomes of the record. -/
  change : α → σ → σ

/-- What stands behind the name of a member. -/
inductive Content (α : Type) where
  | known (value : α)
  | unknown (text : List Char) (isValue : IsValue text)

/-- The known member, if it is one. -/
def Content.known? {α : Type} : Content α → Option α
  | known value => some value
  | unknown _ _ => none

/-- The text that the name of a member spells. -/
def Member.name? {α : Type} (m : Member α) : Option String :=
  (StringPiece.decode? m.name).map String.ofList

namespace Vocabulary

variable {α σ : Type} (v : Vocabulary α σ)

/-- The text of what stands behind a name. -/
def textOf : Content α → List Char
  | .known value => v.text value
  | .unknown text _ => text

/-- The name of a member is that of its value, or of no value. -/
def IsNamed (m : Member (Content α)) : Prop :=
  match m.item.value with
  | .known value => m.name? = some (v.name value)
  | .unknown _ _ => ∀ name ∈ m.name?, name ∉ v.names

/-- The known members. -/
def values (members : List (Member (Content α))) : List α :=
  members.filterMap fun m => m.item.value.known?

/-- The change that known members make, one after the other. -/
def changes (values : List α) (start : σ) : σ :=
  values.foldl (fun record value => v.change value record) start

/-- Members are sound behind others whose names have been seen. -/
structure IsSoundAfter (seen : List String) (members : List (Member (Content α))) : Prop where
  spelled : ∀ m ∈ members, m.name?.isSome = true
  sound : ∀ value ∈ values members, v.IsSound value
  once : ((values members).map v.name).Nodup
  unseen : ∀ value ∈ values members, v.name value ∉ seen

end Vocabulary

/-- A record with known and unknown members, as it is spelled. -/
structure RecordSpelling {α σ : Type} (v : Vocabulary α σ) where
  members : List (Member (Content α))
  finish : Blanks
  named : ∀ m ∈ members, v.IsNamed m

namespace RecordSpelling

variable {α σ : Type} {v : Vocabulary α σ}

/-- The text of a record. -/
def text (r : RecordSpelling v) : List Char :=
  recordText v.textOf r.members r.finish

/-- The known members of a record. -/
def values (r : RecordSpelling v) : List α :=
  Vocabulary.values r.members

/-- All names of a record spell texts. -/
def NamesAreText (r : RecordSpelling v) : Prop :=
  ∀ m ∈ r.members, m.name?.isSome = true

/-- No known name comes twice. -/
def NoneTwice (r : RecordSpelling v) : Prop :=
  (r.values.map v.name).Nodup

/-- All names of a record spell texts, none that is known comes twice, and the values are sound
themselves. -/
structure IsSound (r : RecordSpelling v) : Prop where
  spelled : r.NamesAreText
  sound : ∀ value ∈ r.values, v.IsSound value
  once : r.NoneTwice

theorem isSoundAfter_nil_iff (r : RecordSpelling v) :
    v.IsSoundAfter [] r.members ↔ r.IsSound :=
  ⟨fun h => ⟨h.spelled, h.sound, h.once⟩, fun h => ⟨h.spelled, h.sound, h.once, nofun⟩⟩

end RecordSpelling

namespace Vocabulary

variable {α σ : Type} {v : Vocabulary α σ}

theorem values_cons_of_known {m : Member (Content α)} {value : α}
    (known : m.item.value = .known value) (members : List (Member (Content α))) :
    values (m :: members) = value :: values members := by
  rw [values, List.filterMap_cons, known]
  rfl

theorem values_cons_of_unknown {m : Member (Content α)} {text : List Char} {isValue : IsValue text}
    (unknown : m.item.value = .unknown text isValue) (members : List (Member (Content α))) :
    values (m :: members) = values members := by
  rw [values, List.filterMap_cons, unknown]
  rfl

theorem isSoundAfter_nil (seen : List String) : v.IsSoundAfter seen [] :=
  ⟨nofun, nofun, List.nodup_nil, nofun⟩

theorem isSoundAfter_cons_of_known {m : Member (Content α)} {value : α} {seen : List String}
    {members : List (Member (Content α))} (known : m.item.value = .known value)
    (name : m.name? = some (v.name value)) :
    v.IsSoundAfter seen (m :: members) ↔
      v.name value ∉ seen ∧ v.IsSound value ∧ v.IsSoundAfter (v.name value :: seen) members := by
  have spelled : m.name?.isSome = true := by rw [name]; rfl
  constructor
  · rintro ⟨names, sound, once, unseen⟩
    rw [values_cons_of_known known] at sound once unseen
    rw [List.map_cons, List.nodup_cons] at once
    refine ⟨unseen value List.mem_cons_self, sound value List.mem_cons_self,
      fun m' member => names m' (List.mem_cons_of_mem _ member),
      fun other member => sound other (List.mem_cons_of_mem _ member), once.2, ?_⟩
    intro other member seenBefore
    rcases List.mem_cons.mp seenBefore with same | before
    · exact once.1 (same ▸ List.mem_map_of_mem member)
    · exact unseen other (List.mem_cons_of_mem _ member) before
  · rintro ⟨fresh, here, names, sound, once, unseen⟩
    have new : v.name value ∉ (values members).map v.name := by
      intro again
      obtain ⟨other, member, same⟩ := List.mem_map.mp again
      exact unseen other member (same ▸ List.mem_cons_self)
    refine ⟨List.forall_mem_cons.mpr ⟨spelled, names⟩, ?_, ?_, ?_⟩
    · rw [values_cons_of_known known]
      exact List.forall_mem_cons.mpr ⟨here, sound⟩
    · rw [values_cons_of_known known, List.map_cons]
      exact List.nodup_cons.mpr ⟨new, once⟩
    · rw [values_cons_of_known known]
      refine List.forall_mem_cons.mpr ⟨fresh, fun other member before => ?_⟩
      exact unseen other member (List.mem_cons_of_mem _ before)

theorem isSoundAfter_cons_of_unknown {m : Member (Content α)} {text : List Char}
    {isValue : IsValue text} {seen : List String} {members : List (Member (Content α))}
    (unknown : m.item.value = .unknown text isValue)
    {name : String} (spelled : m.name? = some name) (strange : name ∉ v.names) :
    v.IsSoundAfter seen (m :: members) ↔ v.IsSoundAfter (name :: seen) members := by
  have isSome : m.name?.isSome = true := by rw [spelled]; rfl
  have other (value : α) : v.name value ∉ name :: seen ↔ v.name value ∉ seen := by
    have differs : v.name value ≠ name := fun same => strange (same ▸ v.name_mem value)
    rw [List.mem_cons, or_iff_right differs]
  constructor
  · rintro ⟨names, sound, once, unseen⟩
    rw [values_cons_of_unknown unknown] at sound once unseen
    exact ⟨(List.forall_mem_cons.mp names).2, sound, once,
      fun value member => (other value).mpr (unseen value member)⟩
  · rintro ⟨names, sound, once, unseen⟩
    refine ⟨List.forall_mem_cons.mpr ⟨isSome, names⟩, ?_, ?_, ?_⟩
    · rwa [values_cons_of_unknown unknown]
    · rwa [values_cons_of_unknown unknown]
    · rw [values_cons_of_unknown unknown]
      exact fun value member => (other value).mp (unseen value member)

end Vocabulary

/-! ### Lists -/

/-- A list that brings the values of the first members, in their order. -/
structure ListSpelling {α σ : Type} (v : Vocabulary α σ) where
  items : List (Item α)
  finish : Blanks
  inOrder : items.map (fun item => v.name item.value) <+: v.names

namespace ListSpelling

variable {α σ : Type} {v : Vocabulary α σ}

/-- The text of a list. -/
def text (l : ListSpelling v) : List Char :=
  listText v.text l.items l.finish

/-- The members that a list brings. -/
def values (l : ListSpelling v) : List α :=
  l.items.map Item.value

end ListSpelling

/-! ### Parts -/

/-- The record has parts, each of which belongs to a member. A member brings some of its parts, sets
the others back and leaves those of other members alone. -/
structure Vocabulary.Parts {α σ : Type} (v : Vocabulary α σ) (ι : Type) [DecidableEq ι]
    (β : ι → Type) where
  get : σ → (part : ι) → β part
  owner : ι → String
  brings : α → List (Sigma β)
  /-- A part that its member does not bring. -/
  unbrought : (part : ι) → β part
  owner_of_mem : ∀ value, ∀ choice ∈ brings value, owner choice.1 = v.name value
  get_change_own : ∀ value record part, v.IsSound value → owner part = v.name value →
    get (v.change value record) part = ((brings value).dlookup part).getD (unbrought part)
  get_change_other : ∀ value record part, owner part ≠ v.name value →
    get (v.change value record) part = get record part

namespace Vocabulary.Parts

variable {α σ ι : Type} [DecidableEq ι] {β : ι → Type} {v : Vocabulary α σ} (p : v.Parts ι β)

theorem dlookup_brings_eq_none {value : α} {part : ι} (other : p.owner part ≠ v.name value) :
    (p.brings value).dlookup part = none := by
  refine List.dlookup_eq_none.mpr fun brought => other ?_
  obtain ⟨content, member⟩ := List.exists_of_mem_keys brought
  exact p.owner_of_mem value _ member

theorem dlookup_flatMap_brings_eq_none {values : List α} {part : ι}
    (others : p.owner part ∉ values.map v.name) :
    (values.flatMap p.brings).dlookup part = none := by
  refine List.dlookup_eq_none.mpr fun brought => others ?_
  obtain ⟨content, member⟩ := List.exists_of_mem_keys brought
  obtain ⟨value, here, member⟩ := List.mem_flatMap.mp member
  exact p.owner_of_mem value _ member ▸ List.mem_map_of_mem here

/-- Members with different names bring different parts. -/
theorem nodupKeys_flatMap_brings {values : List α} (once : (values.map v.name).Nodup)
    (each : ∀ value ∈ values, (p.brings value).NodupKeys) :
    (values.flatMap p.brings).NodupKeys := by
  induction values with
  | nil => exact List.nodup_nil
  | cons value values ih =>
    rw [List.map_cons, List.nodup_cons] at once
    obtain ⟨here, later⟩ := List.forall_mem_cons.mp each
    have apart (part : ι) (brought : part ∈ (p.brings value).keys) :
        part ∉ (values.flatMap p.brings).keys := by
      obtain ⟨content, member⟩ := List.exists_of_mem_keys brought
      refine List.dlookup_eq_none.mp (p.dlookup_flatMap_brings_eq_none ?_)
      exact p.owner_of_mem value _ member ▸ once.1
    rw [List.flatMap_cons, List.NodupKeys, List.keys, List.map_append]
    exact List.nodup_append'.mpr ⟨here, ih once.2 later, fun part => apart part⟩

/-- What members leave of a part is what they bring of it, or what it was. The induction is on the
members; before each of them its parts are as if nothing had been brought. -/
theorem get_changes {values : List α} (sound : ∀ value ∈ values, v.IsSound value)
    (once : (values.map v.name).Nodup) {start : σ}
    (fresh : ∀ part, p.owner part ∈ values.map v.name → p.get start part = p.unbrought part)
    (part : ι) :
    p.get (v.changes values start) part =
      ((values.flatMap p.brings).dlookup part).getD (p.get start part) := by
  induction values generalizing start with
  | nil => rfl
  | cons value values ih =>
    rw [List.map_cons, List.nodup_cons] at once
    obtain ⟨soundHere, soundLater⟩ := List.forall_mem_cons.mp sound
    have freshLater : ∀ other, p.owner other ∈ values.map v.name →
        p.get (v.change value start) other = p.unbrought other := by
      intro other member
      have differs : p.owner other ≠ v.name value := fun same => once.1 (same ▸ member)
      rw [p.get_change_other value start other differs]
      exact fresh other (List.mem_cons_of_mem _ member)
    rw [show v.changes (value :: values) start = v.changes values (v.change value start) from rfl,
      ih soundLater once.2 freshLater, List.flatMap_cons, List.dlookup_append]
    by_cases own : p.owner part = v.name value
    · -- No later member has this part, so it stays as it is here.
      rw [p.dlookup_flatMap_brings_eq_none (own ▸ once.1), Option.or_none, Option.getD_none,
        p.get_change_own value start part soundHere own, fresh part (own ▸ List.mem_cons_self)]
    · rw [p.dlookup_brings_eq_none own, Option.none_or, p.get_change_other value start part own]

end Vocabulary.Parts

end Famicom.Json
