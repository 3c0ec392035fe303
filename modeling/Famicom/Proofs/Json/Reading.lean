import Famicom.Json.Record
import Famicom.Proofs.Json.Skipping
import Famicom.Proofs.Json.Vocabulary

/-!
# Records are read as what their members say

Readers follow a vocabulary if they read every known member that stands in front of a text that may
follow a value. Then a record of the grammar is read if it is sound, as what its known members make
of the record to start from, and it is refused if it is not.

## Main definitions

* `ReadsIf` — a text is read as a result if it is sound, and refused if it is not
* `Vocabulary.IsReadBy` — readers follow a vocabulary

## Main results

* `readMembers_append` — members are read, and unknown ones passed over, from any of them on
* `RecordSpelling.reads` — a record is read if it is sound
* `ListSpelling.reads` — a list brings its members in their order and may end early
-/

namespace Famicom.Json

/-- A text is read as a result if it is sound, and refused if it is not. -/
structure ReadsIf {β : Type} (sound : Prop) (outcome : Except Flaw β) (result : β) : Prop where
  accepts : sound → outcome = .ok result
  refuses : ¬ sound → ∃ flaw, outcome = .error flaw

namespace ReadsIf

variable {β : Type} {sound sound' : Prop} {outcome : Except Flaw β} {result : β}

theorem of_ok (read : outcome = .ok result) (holds : sound) : ReadsIf sound outcome result :=
  ⟨fun _ => read, fun fails => absurd holds fails⟩

theorem of_error {flaw : Flaw} (refused : outcome = .error flaw) (fails : ¬ sound) :
    ReadsIf sound outcome result :=
  ⟨fun holds => absurd holds fails, fun _ => ⟨flaw, refused⟩⟩

theorem congr (reads : ReadsIf sound outcome result) (same : sound' ↔ sound) :
    ReadsIf sound' outcome result :=
  propext same ▸ reads

/-- What is read is put into the record. -/
theorem replacing {α σ : Type} {reader : List Char → Except Flaw (α × List Char)} {value : α}
    {s rest : List Char} (reads : ReadsIf sound (reader s) (value, rest)) (name : String)
    (put : α → σ → σ) :
    ReadsIf sound ((MemberReader.replacing name reader put).read s) (put value, rest) := by
  constructor
  · intro holds
    simp only [MemberReader.replacing, reads.accepts holds]
    rfl
  · intro fails
    obtain ⟨flaw, refused⟩ := reads.refuses fails
    refine ⟨flaw, ?_⟩
    simp only [MemberReader.replacing, refused]
    rfl

end ReadsIf

/-- Readers follow a vocabulary: every known member has a reader, which reads its value. -/
structure Vocabulary.IsReadBy {α σ : Type} (v : Vocabulary α σ)
    (readers : List (MemberReader σ)) : Prop where
  names : readers.map MemberReader.name = v.names
  reads : ∀ value, ∃ reader, readers.find? (·.name == v.name value) = some reader ∧
    ∀ (b : Blanks) (s : List Char), EndsValue s →
      ReadsIf (v.IsSound value) (reader.read (b.text ++ (v.text value ++ s)))
        (v.change value, s)

/-! ### Members -/

section Members

variable {α σ : Type}

theorem nextName_end (isFirst : Bool) (b finish : Blanks) (s : List Char) :
    nextName isFirst (b.text ++ (finish.text ++ '}' :: s)) = .ok (none, s) := by
  have brace : skipBlanks ('}' :: s) = '}' :: s := skipBlanks_cons rfl
  rw [nextName, skipBlanks_append, skipBlanks_append, brace]
  rfl

/-- The name of a member leads to its colon, behind the comma in front of it. -/
theorem nextName_member (textOf : α → List Char) (isFirst : Bool) (b : Blanks) (m : Member α)
    (s : List Char) :
    nextName isFirst (b.text ++ ((if isFirst then [] else [',']) ++ (m.text textOf ++ s))) =
      match StringPiece.decode? m.name with
      | some name => .ok (some name, m.between.text ++ ':' :: (m.item.text textOf ++ s))
      | none => .error .malformed := by
  have quote (t : List Char) : skipBlanks (m.before.text ++ '"' :: t) = '"' :: t :=
    (skipBlanks_append m.before _).trans (skipBlanks_cons rfl)
  have comma (t : List Char) : skipBlanks (',' :: t) = ',' :: t := skipBlanks_cons rfl
  have text : m.text textOf ++ s = m.before.text ++
      '"' :: (stringEnd m.name ++ (m.between.text ++ ':' :: (m.item.text textOf ++ s))) := by
    simp only [Member.text, stringText, List.append_assoc, List.cons_append]
  have named : nextName isFirst (b.text ++ ((if isFirst then [] else [',']) ++
      (m.text textOf ++ s))) =
        readString (stringEnd m.name ++ (m.between.text ++ ':' :: (m.item.text textOf ++ s))) >>=
          fun p => .ok (some p.1, p.2) := by
    rw [text, nextName, skipBlanks_append]
    cases isFirst with
    | true =>
      rw [if_pos rfl, List.nil_append, quote]
      rfl
    | false =>
      rw [if_neg Bool.false_ne_true, List.singleton_append, comma]
      exact congrArg (fun t => readName t >>= fun p => .ok (some p.1, p.2)) (quote _)
  rw [named, readString_append]
  cases StringPiece.decode? m.name <;> rfl

variable {readers : List (MemberReader σ)} {fuel : Nat} {seen : List String} {start : σ}
  {s after : List Char} {name : List Char} {item : List Char}

theorem readMembers_of_end (here : nextName seen.isEmpty s = .ok (none, after)) :
    readMembers readers (fuel + 1) seen start s = .ok (start, after) := by
  rw [readMembers, here]
  rfl

theorem readMembers_of_flaw {flaw : Flaw} (here : nextName seen.isEmpty s = .error flaw) :
    readMembers readers (fuel + 1) seen start s = .error flaw := by
  rw [readMembers, here]
  rfl

theorem readMembers_of_known {reader : MemberReader σ} (b : Blanks)
    (here : nextName seen.isEmpty s = .ok (some name, b.text ++ ':' :: item))
    (known : readers.find? (·.name == String.ofList name) = some reader) :
    readMembers readers (fuel + 1) seen start s =
      if seen.contains (String.ofList name) then .error .mismatched
      else reader.read item >>= fun p =>
        readMembers readers fuel (String.ofList name :: seen) (p.1 start) p.2 := by
  rw [readMembers, here]
  simp only [bind, Except.bind, known, skipColon_append]
  split <;> rfl

theorem readMembers_of_unknown (b : Blanks)
    (here : nextName seen.isEmpty s = .ok (some name, b.text ++ ':' :: item))
    (unknown : readers.find? (·.name == String.ofList name) = none)
    (skipped : skipValue item = .ok after) :
    readMembers readers (fuel + 1) seen start s =
      readMembers readers fuel (String.ofList name :: seen) start after := by
  rw [readMembers, here]
  simp only [bind, Except.bind, unknown, skipColon_append, skipped]

end Members

/-! ### Records -/

section Records

variable {α σ : Type} {v : Vocabulary α σ} {readers : List (MemberReader σ)}

theorem Vocabulary.IsReadBy.find?_eq_none (read : v.IsReadBy readers) {name : String}
    (strange : name ∉ v.names) : readers.find? (·.name == name) = none := by
  refine List.find?_eq_none.mpr fun reader member same => strange ?_
  rw [← read.names, ← eq_of_beq same]
  exact List.mem_map_of_mem member

theorem length_le_separated (isFirst : Bool) {texts : List (List Char)}
    (nonempty : ∀ text ∈ texts, text ≠ []) : texts.length ≤ (separated isFirst texts).length := by
  induction texts generalizing isFirst with
  | nil => exact Nat.zero_le _
  | cons text texts ih =>
    obtain ⟨here, later⟩ := List.forall_mem_cons.mp nonempty
    have here := List.length_pos_iff.mpr here
    have later := ih false later
    rw [separated, List.length_cons, List.length_append, List.length_append]
    omega

/-- What follows the value of a member. -/
theorem endsValue_behind (textOf : α → List Char) (b : Blanks) (members : List (Member α))
    (finish : Blanks) (s : List Char) :
    EndsValue (b.text ++ (separated false (members.map (Member.text textOf)) ++
      (finish.text ++ '}' :: s))) :=
  endsValue_blanks_append b (endsValue_separated _ finish .record s)

section Step

variable {m : Member (Content α)} {members : List (Member (Content α))} {name : List Char}
  {fuel : Nat} {seen : List String} {start : σ} {s behind : List Char} {result : σ × List Char}

theorem readMembers_of_nameless {flaw : Flaw} (nameless : m.name? = none)
    (next : nextName seen.isEmpty s = .error flaw) :
    ReadsIf (v.IsSoundAfter seen (m :: members))
      (readMembers readers (fuel + 1) seen start s) result := by
  refine .of_error (readMembers_of_flaw next) fun sound => ?_
  have spelled := sound.spelled m List.mem_cons_self
  rw [nameless] at spelled
  cases spelled

/-- A known member is read if it has not been seen and is sound itself, and the others behind it
are sound. -/
theorem readMembers_known (read : v.IsReadBy readers) {value : α}
    (content : m.item.value = .known value) (spelled : m.name? = some (String.ofList name))
    (isName : String.ofList name = v.name value)
    (next : nextName seen.isEmpty s = .ok (some name, m.between.text ++
      ':' :: (m.item.before.text ++ (v.text value ++ behind))))
    (ends : EndsValue behind)
    (later : ReadsIf (v.IsSoundAfter (v.name value :: seen) members)
      (readMembers readers fuel (v.name value :: seen) (v.change value start) behind) result) :
    ReadsIf (v.IsSoundAfter seen (m :: members))
      (readMembers readers (fuel + 1) seen start s) result := by
  have soundIff : v.IsSoundAfter seen (m :: members) ↔
      v.name value ∉ seen ∧ v.IsSound value ∧ v.IsSoundAfter (v.name value :: seen) members :=
    Vocabulary.isSoundAfter_cons_of_known content (spelled.trans (congrArg some isName))
  obtain ⟨reader, found, reads⟩ := read.reads value
  have readHere := reads m.item.before behind ends
  rw [readMembers_of_known m.between next (isName ▸ found), isName]
  by_cases before : v.name value ∈ seen
  · rw [if_pos (List.contains_iff_mem.mpr before)]
    exact .of_error rfl fun sound => (soundIff.mp sound).1 before
  · rw [if_neg fun twice => before (List.contains_iff_mem.mp twice)]
    by_cases sound : v.IsSound value
    · rw [readHere.accepts sound]
      refine later.congr (soundIff.trans ?_)
      rw [and_iff_right before, and_iff_right sound]
    · obtain ⟨flaw, refused⟩ := readHere.refuses sound
      rw [refused]
      exact .of_error rfl fun whole => sound (soundIff.mp whole).2.1

/-- An unknown member is passed over. -/
theorem readMembers_unknown (read : v.IsReadBy readers) {text : List Char} {isValue : IsValue text}
    (content : m.item.value = .unknown text isValue)
    (spelled : m.name? = some (String.ofList name)) (strange : String.ofList name ∉ v.names)
    (next : nextName seen.isEmpty s = .ok (some name, m.between.text ++
      ':' :: (m.item.before.text ++ (text ++ behind))))
    (ends : EndsValue behind)
    (later : ReadsIf (v.IsSoundAfter (String.ofList name :: seen) members)
      (readMembers readers fuel (String.ofList name :: seen) start behind) result) :
    ReadsIf (v.IsSoundAfter seen (m :: members))
      (readMembers readers (fuel + 1) seen start s) result := by
  have skipped := skipValue_append isValue m.item.before ends
  rw [readMembers_of_unknown m.between next (read.find?_eq_none strange) skipped]
  exact later.congr (Vocabulary.isSoundAfter_cons_of_unknown content spelled strange)

end Step

/-- Members are read if they are sound behind those before. The induction is on the members; each
step hands on the names seen, the record changed so far and the blanks behind the last value. -/
theorem readMembers_append (read : v.IsReadBy readers) (finish : Blanks) (s : List Char)
    {members : List (Member (Content α))} (named : ∀ m ∈ members, v.IsNamed m) {fuel : Nat}
    (enough : members.length < fuel) (seen : List String) (start : σ) (b : Blanks) :
    ReadsIf (v.IsSoundAfter seen members)
      (readMembers readers fuel seen start
        (b.text ++ (separated seen.isEmpty (members.map (Member.text v.textOf)) ++
          (finish.text ++ '}' :: s))))
      (v.changes (Vocabulary.values members) start, s) := by
  induction members generalizing fuel seen start b with
  | nil =>
    obtain ⟨fuel, rfl⟩ : ∃ n, fuel = n + 1 := Nat.exists_eq_add_one.mpr (by omega)
    exact .of_ok (readMembers_of_end (nextName_end _ b finish s)) (Vocabulary.isSoundAfter_nil seen)
  | cons m members ih =>
    obtain ⟨fuel, rfl⟩ : ∃ n, fuel = n + 1 := Nat.exists_eq_add_one.mpr (by omega)
    obtain ⟨namedHere, namedLater⟩ := List.forall_mem_cons.mp named
    have enoughLater : members.length < fuel := Nat.lt_of_succ_lt_succ enough
    have ends := endsValue_behind v.textOf m.item.after members finish s
    have next := nextName_member v.textOf seen.isEmpty b m
      (separated false (members.map (Member.text v.textOf)) ++ (finish.text ++ '}' :: s))
    rw [List.map_cons, separated, List.append_assoc, List.append_assoc]
    rw [Item.text, List.append_assoc, List.append_assoc] at next
    cases decoded : StringPiece.decode? m.name with
    | none =>
      rw [decoded] at next
      exact readMembers_of_nameless (by rw [Member.name?, decoded, Option.map_none]) next
    | some name =>
      rw [decoded] at next
      have spelled : m.name? = some (String.ofList name) := by
        rw [Member.name?, decoded, Option.map_some]
      cases content : m.item.value with
      | known value =>
        rw [Vocabulary.IsNamed, content, spelled] at namedHere
        have isName : String.ofList name = v.name value := Option.some.inj namedHere
        rw [content, Vocabulary.textOf] at next
        rw [Vocabulary.values_cons_of_known content]
        exact readMembers_known read content spelled isName next ends
          (ih namedLater enoughLater (v.name value :: seen) (v.change value start) m.item.after)
      | unknown text isValue =>
        rw [Vocabulary.IsNamed, content, spelled] at namedHere
        have strange : String.ofList name ∉ v.names := namedHere _ rfl
        rw [content, Vocabulary.textOf] at next
        rw [Vocabulary.values_cons_of_unknown content]
        exact readMembers_unknown read content spelled strange next ends
          (ih namedLater enoughLater (String.ofList name :: seen) start m.item.after)

/-- A record of the grammar is read if it is sound. -/
theorem RecordSpelling.reads (r : RecordSpelling v) (read : v.IsReadBy readers) (start : σ)
    (b : Blanks) (s : List Char) :
    ReadsIf r.IsSound (readRecord readers start (b.text ++ (r.text ++ s)))
      (v.changes r.values start, s) := by
  have opens : skipBlanks (b.text ++ (r.text ++ s)) =
      '{' :: (separated true (r.members.map (Member.text v.textOf)) ++
        (r.finish.text ++ '}' :: s)) := by
    rw [skipBlanks_append, text, recordText, recordEnd, List.cons_append, List.append_assoc,
      List.append_assoc, List.singleton_append]
    exact skipBlanks_cons rfl
  -- A reader has fuel for every character, and every member has at least one.
  have enough : r.members.length < (separated true (r.members.map (Member.text v.textOf)) ++
      (r.finish.text ++ '}' :: s)).length + 1 := by
    have nonempty : ∀ text ∈ r.members.map (Member.text v.textOf), text ≠ [] := by
      intro text member
      obtain ⟨m, -, rfl⟩ := List.mem_map.mp member
      simp [Member.text, stringText]
    have texts := length_le_separated true nonempty
    rw [List.length_map] at texts
    rw [List.length_append]
    omega
  have members := readMembers_append read r.finish s r.named enough [] start .none
  rw [readRecord, opens]
  exact members.congr r.isSoundAfter_nil_iff.symm

end Records

/-! ### Lists -/

section Lists

variable {α σ : Type} {v : Vocabulary α σ} {readers : List (MemberReader σ)}

theorem Vocabulary.IsReadBy.reads_named (read : v.IsReadBy readers)
    {reader : MemberReader σ} (member : reader ∈ readers) {value : α}
    (name : v.name value = reader.name) (b : Blanks) {s : List Char} (ends : EndsValue s) :
    ReadsIf (v.IsSound value) (reader.read (b.text ++ (v.text value ++ s)))
      (v.change value, s) := by
  obtain ⟨reader', found, reads⟩ := read.reads value
  have same := List.find?_some found
  have name' : reader'.name = reader.name := (eq_of_beq same).trans name
  have distinct := v.distinct
  rw [← read.names] at distinct
  obtain rfl := List.inj_on_of_nodup_map distinct (List.mem_of_find?_eq_some found) member name'
  exact reads b s ends

/-- A value is the next item of a list, behind the comma in front of it. -/
theorem readItems_item {reader : MemberReader σ} {text : List Char} (isValue : IsValue text)
    (isFirst : Bool) (start : σ) (b before : Blanks) {change : σ → σ} {s after : List Char}
    (read : reader.read (text ++ s) = .ok (change, after)) :
    readItems (reader :: readers) isFirst start
        (b.text ++ ((if isFirst then [] else [',']) ++ (before.text ++ (text ++ s)))) =
      readItems readers false (change start) after := by
  obtain ⟨c, rest, begins, mark, other⟩ := isValue.isSkipped.begins
  have here : skipBlanks (before.text ++ (text ++ s)) = c :: (rest ++ s) := by
    rw [skipBlanks_append, begins]
    exact skipBlanks_cons mark
  rw [begins, List.cons_append] at read
  rw [readItems, skipBlanks_append]
  cases isFirst with
  | true =>
    rw [if_pos rfl, List.nil_append, here]
    split
    · rename_i ends
      cases ends
    · rename_i closes
      exact absurd (List.cons.inj closes).1 other
    · have first : nextItem true (c :: (rest ++ s)) = .ok (c :: (rest ++ s)) := rfl
      simp only [first, bind, Except.bind, read]
  | false =>
    have comma (t : List Char) : skipBlanks (',' :: t) = ',' :: t := skipBlanks_cons rfl
    rw [if_neg Bool.false_ne_true, List.singleton_append, comma]
    have next : nextItem false (',' :: (before.text ++ (text ++ s))) = .ok (c :: (rest ++ s)) := by
      rw [nextItem, if_neg Bool.false_ne_true]
      simp only [here, if_neg other]
    change (nextItem false (',' :: (before.text ++ (text ++ s))) >>= fun s =>
      reader.read s >>= fun p => readItems readers false (p.1 start) p.2) = _
    simp only [next, bind, Except.bind, read]

/-- Values in the order of the members are read one by one, up to the end of the list. -/
theorem readItems_append (isValue : ∀ value, IsValue (v.text value))
    {items : List (Item α)} (finish : Blanks) (s : List Char)
    (reads : ∀ reader ∈ readers, ∀ value, v.name value = reader.name → ∀ s, EndsValue s →
      reader.read (v.text value ++ s) = .ok (v.change value, s))
    (inOrder : items.map (fun item => v.name item.value) <+: readers.map MemberReader.name)
    (isFirst : Bool) (start : σ) (b : Blanks) :
    readItems readers isFirst start
        (b.text ++ (separated isFirst (items.map (Item.text v.text)) ++
          (finish.text ++ ']' :: s))) =
      .ok (v.changes (items.map Item.value) start, s) := by
  induction items generalizing readers isFirst start b with
  | nil =>
    have bracket : skipBlanks (']' :: s) = ']' :: s := skipBlanks_cons rfl
    cases readers with
    | nil =>
      rw [readItems, endItems]
      simp only [List.map_nil, separated, List.nil_append, skipBlanks_append, bracket]
      rfl
    | cons reader readers =>
      rw [readItems]
      simp only [List.map_nil, separated, List.nil_append, skipBlanks_append, bracket]
      rfl
  | cons item items ih =>
    cases readers with
    | nil => exact absurd inOrder (by simp)
    | cons reader readers =>
      rw [List.map_cons, List.map_cons, List.cons_prefix_cons] at inOrder
      have ends : EndsValue (item.after.text ++
          (separated false (items.map (Item.text v.text)) ++ (finish.text ++ ']' :: s))) :=
        endsValue_blanks_append item.after (endsValue_separated _ finish .list s)
      have here := reads reader List.mem_cons_self item.value inOrder.1 _ ends
      have later := ih (fun reader member => reads reader (List.mem_cons_of_mem _ member))
        inOrder.2 false (v.change item.value start) item.after
      rw [List.map_cons, separated, Item.text, List.append_assoc, List.append_assoc,
        List.append_assoc, List.append_assoc]
      rw [readItems_item (isValue item.value) isFirst start b item.before here]
      exact later

/-- A list that brings the values of the first members is read. -/
theorem ListSpelling.reads (l : ListSpelling v) (read : v.IsReadBy readers)
    (isValue : ∀ value, IsValue (v.text value)) (sound : ∀ value, v.IsSound value) (start : σ)
    (b : Blanks) (s : List Char) :
    readRecord readers start (b.text ++ (l.text ++ s)) = .ok (v.changes l.values start, s) := by
  have opens : skipBlanks (b.text ++ (l.text ++ s)) =
      '[' :: (separated true (l.items.map (Item.text v.text)) ++ (l.finish.text ++ ']' :: s)) := by
    rw [skipBlanks_append, text, listText, listEnd, List.cons_append, List.append_assoc,
      List.append_assoc, List.singleton_append]
    exact skipBlanks_cons rfl
  have items := readItems_append isValue l.finish s
    (fun reader member value name s ends =>
      (read.reads_named member name .none ends).accepts (sound value))
    (read.names ▸ l.inOrder) true start .none
  rw [readRecord, opens]
  exact items

end Lists

end Famicom.Json
