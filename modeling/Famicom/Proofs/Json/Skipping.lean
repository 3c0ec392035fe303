import Famicom.Json.Skip
import Famicom.Proofs.Json.Scanning

/-!
# Values are passed over to their ends

A value that nobody wants to know is passed over with a stack of the lists and records that are
open. From the outside the stack is not seen: a value leads from the expectation of a value to what
follows one, with the same lists and records open. So does every item with its comma, and with them
all of a list or record.

## Main definitions

* `IsSkipped` — a text is passed over like a value
* `IsItemSkipped` — a text is passed over like an item of an open list or record

## Main results

* `skipFrom_items` — the items of a list or record are passed over one by one
* `skipValue_append` — every value of the grammar is passed over, and nothing behind it
-/

namespace Famicom.Json

variable {s rest : List Char} {c : Char} {frame : Frame} {frames : List Frame}

/-! ### Steps -/

theorem skipFrom_value (begins : skipBlanks s = c :: rest) :
    skipFrom .value frames s =
      match Frame.ofOpener? c with
      | some frame => skipFrom (.firstItem frame) frames rest
      | none => skipScalar (c :: rest) >>= skipFrom .following frames := by
  rw [skipFrom]
  split
  · rename_i ends
    rw [begins] at ends
    cases ends
  · rename_i c' rest' begins'
    obtain ⟨rfl, rfl⟩ := List.cons.inj (begins.symm.trans begins')
    cases Frame.ofOpener? c with
    | some frame => rfl
    | none =>
      dsimp only
      split <;> rename_i found <;> rw [found] <;> rfl

theorem skipFrom_firstItem (begins : skipBlanks s = c :: rest) :
    skipFrom (.firstItem frame) frames s =
      if c = frame.closer then skipFrom .following frames rest
      else startItem frame (c :: rest) >>= skipFrom .value (frame :: frames) := by
  conv => lhs; rw [skipFrom]
  split
  · rename_i ends
    rw [begins] at ends
    cases ends
  · rename_i c' rest' begins'
    obtain ⟨rfl, rfl⟩ := List.cons.inj (begins.symm.trans begins')
    refine ite_congr rfl (fun _ => rfl) fun _ => ?_
    split <;> rename_i found <;> rw [found] <;> rfl

theorem skipFrom_following_cons (begins : skipBlanks s = c :: rest) :
    skipFrom .following (frame :: frames) s =
      if c = frame.closer then skipFrom .following frames rest
      else if c = ',' then startItem frame rest >>= skipFrom .value (frame :: frames)
      else .error .malformed := by
  conv => lhs; rw [skipFrom]
  split
  · rename_i ends
    rw [begins] at ends
    cases ends
  · rename_i c' rest' begins'
    obtain ⟨rfl, rfl⟩ := List.cons.inj (begins.symm.trans begins')
    refine ite_congr rfl (fun _ => rfl) fun _ => ite_congr rfl (fun _ => ?_) fun _ => rfl
    split <;> rename_i found <;> rw [found] <;> rfl

theorem skipFrom_value_of_scalar (begins : skipBlanks s = c :: rest)
    (scalar : Frame.ofOpener? c = none) {behind : List Char}
    (skipped : skipScalar (c :: rest) = .ok behind) :
    skipFrom .value frames s = skipFrom .following frames behind := by
  rw [skipFrom_value begins, scalar, skipped]
  rfl

theorem skipFrom_value_of_opener (begins : skipBlanks s = c :: rest)
    (opener : Frame.ofOpener? c = some frame) :
    skipFrom .value frames s = skipFrom (.firstItem frame) frames rest := by
  rw [skipFrom_value begins, opener]

theorem skipFrom_firstItem_of_closer (begins : skipBlanks s = frame.closer :: rest) :
    skipFrom (.firstItem frame) frames s = skipFrom .following frames rest := by
  rw [skipFrom_firstItem begins, if_pos rfl]

theorem skipFrom_firstItem_of_item (begins : skipBlanks s = c :: rest) (item : c ≠ frame.closer)
    {behind : List Char} (started : startItem frame (c :: rest) = .ok behind) :
    skipFrom (.firstItem frame) frames s = skipFrom .value (frame :: frames) behind := by
  rw [skipFrom_firstItem begins, if_neg item, started]
  rfl

theorem skipFrom_following_of_closer (begins : skipBlanks s = frame.closer :: rest) :
    skipFrom .following (frame :: frames) s = skipFrom .following frames rest := by
  rw [skipFrom_following_cons begins, if_pos rfl]

theorem skipFrom_following_of_comma (begins : skipBlanks s = ',' :: rest) {behind : List Char}
    (started : startItem frame rest = .ok behind) :
    skipFrom .following (frame :: frames) s = skipFrom .value (frame :: frames) behind := by
  have comma : ',' ≠ frame.closer := by cases frame <;> decide
  rw [skipFrom_following_cons begins, if_neg comma, if_pos rfl, started]
  rfl

theorem skipFrom_following_nil (s : List Char) : skipFrom .following [] s = .ok s := by
  rw [skipFrom]

/-- While a list or record is open, blanks behind a value do not matter. -/
theorem skipFrom_following_append (b : Blanks) (s : List Char) :
    skipFrom .following (frame :: frames) (b.text ++ s) =
      skipFrom .following (frame :: frames) s := by
  rw [skipFrom.eq_def, skipFrom.eq_def]
  generalize same : skipBlanks (b.text ++ s) = following
  rw [skipBlanks_append] at same
  subst same
  rfl

/-! ### Values and items -/

/-- A text is passed over like a value, whatever is open and whatever blanks are in front. -/
structure IsSkipped (value : List Char) : Prop where
  begins : ∃ c rest, value = c :: rest ∧ isBlank c = false ∧ c ≠ ']'
  skips : ∀ (frames : List Frame) (b : Blanks) (s : List Char), EndsValue s →
    skipFrom .value frames (b.text ++ (value ++ s)) = skipFrom .following frames s

/-- A text is passed over like an item of an open list or record, be it the first or not. -/
structure IsItemSkipped (frame : Frame) (item : List Char) : Prop where
  first : ∀ (frames : List Frame) (s : List Char), EndsValue s →
    skipFrom (.firstItem frame) frames (item ++ s) = skipFrom .following (frame :: frames) s
  later : ∀ (frames : List Frame) (s : List Char), EndsValue s →
    skipFrom .following (frame :: frames) (',' :: (item ++ s)) =
      skipFrom .following (frame :: frames) s

theorem skipBlanks_closer (frame : Frame) (s : List Char) :
    skipBlanks (frame.closer :: s) = frame.closer :: s :=
  skipBlanks_cons (by cases frame <;> rfl)

theorem endsValue_separated (items : List (List Char)) (finish : Blanks) (frame : Frame)
    (s : List Char) :
    EndsValue (separated false items ++ (finish.text ++ frame.closer :: s)) := by
  cases items with
  | nil => exact endsValue_blanks_append finish (endsValue_cons (by cases frame <;> rfl))
  | cons item items => exact endsValue_cons rfl

theorem skipFrom_items_later {items : List (List Char)}
    (skipped : ∀ item ∈ items, IsItemSkipped frame item) (finish : Blanks) (s : List Char) :
    skipFrom .following (frame :: frames)
        (separated false items ++ (finish.text ++ frame.closer :: s)) =
      skipFrom .following frames s := by
  induction items with
  | nil =>
    rw [separated, List.nil_append, skipFrom_following_append]
    exact skipFrom_following_of_closer (skipBlanks_closer frame s)
  | cons item items ih =>
    rw [separated, if_neg Bool.false_ne_true, List.singleton_append, List.cons_append,
      List.append_assoc]
    rw [(skipped item List.mem_cons_self).later frames _ (endsValue_separated items finish frame s)]
    exact ih fun item member => skipped item (List.mem_cons_of_mem _ member)

/-- The items of a list or record are passed over one by one, and then its end. -/
theorem skipFrom_items {items : List (List Char)}
    (skipped : ∀ item ∈ items, IsItemSkipped frame item) (finish : Blanks) (s : List Char) :
    skipFrom (.firstItem frame) frames
        (separated true items ++ (finish.text ++ frame.closer :: s)) =
      skipFrom .following frames s := by
  cases items with
  | nil =>
    rw [separated, List.nil_append]
    exact skipFrom_firstItem_of_closer
      ((skipBlanks_append finish _).trans (skipBlanks_closer frame s))
  | cons item items =>
    rw [separated, if_pos rfl, List.nil_append, List.append_assoc]
    rw [(skipped item List.mem_cons_self).first frames _ (endsValue_separated items finish frame s)]
    exact skipFrom_items_later (fun item member => skipped item (List.mem_cons_of_mem _ member))
      finish s

theorem IsSkipped.skips_item {item : Item (List Char)} (skipped : IsSkipped item.value)
    (frame : Frame) (frames : List Frame) {s : List Char} (ends : EndsValue s) :
    skipFrom .value (frame :: frames) (item.text id ++ s) =
      skipFrom .following (frame :: frames) s := by
  rw [Item.text, List.append_assoc, List.append_assoc, id]
  rw [skipped.skips _ _ _ (endsValue_blanks_append item.after ends), skipFrom_following_append]

theorem IsSkipped.item {item : Item (List Char)} (skipped : IsSkipped item.value) :
    IsItemSkipped .list (item.text id) where
  first frames s ends := by
    obtain ⟨c, rest, value, mark, other⟩ := skipped.begins
    have begins : skipBlanks (item.text id ++ s) = item.value ++ (item.after.text ++ s) := by
      rw [Item.text, List.append_assoc, List.append_assoc, skipBlanks_append, id, value]
      exact skipBlanks_cons mark
    rw [value, List.cons_append] at begins
    have opened : c ≠ Frame.list.closer := other
    have started : startItem .list (c :: (rest ++ (item.after.text ++ s))) =
        .ok (c :: (rest ++ (item.after.text ++ s))) := rfl
    rw [skipFrom_firstItem_of_item begins opened started]
    have skips := skipped.skips (.list :: frames) .none _ (endsValue_blanks_append item.after ends)
    rw [value, skipFrom_following_append] at skips
    exact skips
  later frames s ends :=
    (skipFrom_following_of_comma (skipBlanks_cons rfl) rfl).trans
      (skipped.skips_item .list frames ends)

theorem skipColon_append (b : Blanks) (s : List Char) :
    skipColon (b.text ++ ':' :: s) = .ok s := by
  have colon : skipBlanks (':' :: s) = ':' :: s := skipBlanks_cons rfl
  simp [skipColon, colon]

/-- The name of a member leads to its value. -/
theorem skipName_append (m : Member (List Char)) (s : List Char) :
    skipName (stringText m.name ++ (m.between.text ++ ':' :: (m.item.text id ++ s))) =
      .ok (m.item.text id ++ s) := by
  have quote (t : List Char) : skipBlanks ('"' :: t) = '"' :: t := skipBlanks_cons rfl
  rw [stringText, List.cons_append, skipName, quote]
  simp only [if_true, skipString_append, bind, Except.bind, skipColon_append]

theorem IsSkipped.member {m : Member (List Char)} (skipped : IsSkipped m.item.value) :
    IsItemSkipped .record (m.text id) where
  first frames s ends := by
    have begins : skipBlanks (m.text id ++ s) =
        '"' :: (stringEnd m.name ++ (m.between.text ++ ':' :: (m.item.text id ++ s))) := by
      rw [Member.text, List.append_assoc, List.append_assoc, List.append_assoc, skipBlanks_append]
      exact skipBlanks_cons rfl
    have named : startItem .record
        ('"' :: (stringEnd m.name ++ (m.between.text ++ ':' :: (m.item.text id ++ s)))) =
        .ok (m.item.text id ++ s) := skipName_append m s
    rw [skipFrom_firstItem_of_item begins (by decide) named]
    exact skipped.skips_item .record frames ends
  later frames s ends := by
    have named : startItem .record (m.text id ++ s) = .ok (m.item.text id ++ s) := by
      have blanks (t : List Char) : skipName (m.before.text ++ t) = skipName t := by
        simp only [skipName, skipBlanks_append]
      rw [Member.text, List.append_assoc, List.append_assoc, List.append_assoc]
      exact (blanks _).trans (skipName_append m s)
    rw [skipFrom_following_of_comma (skipBlanks_cons rfl) named]
    exact skipped.skips_item .record frames ends

/-- A text without parts is passed over like a value. -/
theorem IsSkipped.of_scalar {value : List Char} {c : Char} {rest : List Char}
    (begins : value = c :: rest) (mark : isBlank c = false) (scalar : Frame.ofOpener? c = none)
    (other : c ≠ ']') (skipped : ∀ s, EndsValue s → skipScalar (value ++ s) = .ok s) :
    IsSkipped value where
  begins := ⟨c, rest, begins, mark, other⟩
  skips frames b s ends := by
    have found := skipped s ends
    rw [begins, List.cons_append] at found ⊢
    exact skipFrom_value_of_scalar ((skipBlanks_append b _).trans (skipBlanks_cons mark)) scalar
      found

/-- A list or record is passed over like a value. -/
theorem IsSkipped.of_items {opener : Char} (opens : Frame.ofOpener? opener = some frame)
    (mark : isBlank opener = false) (other : opener ≠ ']') {items : List (List Char)}
    (skipped : ∀ item ∈ items, IsItemSkipped frame item) (finish : Blanks) :
    IsSkipped (opener :: (separated true items ++ (finish.text ++ [frame.closer]))) where
  begins := ⟨opener, _, rfl, mark, other⟩
  skips frames b s ends := by
    rw [List.cons_append, List.append_assoc, List.append_assoc, List.singleton_append]
    rw [skipFrom_value_of_opener ((skipBlanks_append b _).trans (skipBlanks_cons mark)) opens]
    exact skipFrom_items skipped finish s

/-- The first character of a number. -/
theorem NumberSpelling.exists_text (n : NumberSpelling) :
    ∃ c rest, n.text = c :: rest ∧ (c = '-' || isDigit c) = true := by
  unfold text
  cases n.isNegative with
  | true => exact ⟨'-', _, rfl, rfl⟩
  | false =>
    exact ⟨n.whole.first, _, rfl, by rw [n.whole.isDigit_first, Bool.or_true]⟩

theorem skipScalar_number (n : NumberSpelling) {s : List Char} (ends : EndsValue s) :
    skipScalar (n.text ++ s) = .ok s := by
  obtain ⟨c, rest, text, number⟩ := n.exists_text
  have scanned := scanNumber_append .malformed n ends
  rw [text, List.cons_append] at scanned ⊢
  unfold skipScalar
  split
  case h_5 begins =>
    obtain ⟨rfl, rfl⟩ := List.cons.inj begins
    rw [if_pos number, scanned]
  case h_6 ends => cases ends
  all_goals
    -- No number begins like a word or a string.
    rename_i begins
    cases (List.cons.inj begins).1
    cases number

/-- What can begin a number. -/
theorem begins_number {c : Char} (number : (c = '-' || isDigit c) = true) :
    isBlank c = false ∧ Frame.ofOpener? c = none ∧ c ≠ ']' := by
  refine ⟨?_, ?_, ?_⟩
  · rw [Bool.eq_false_iff]
    intro blank
    simp only [isBlank, Bool.or_eq_true, decide_eq_true_eq] at blank
    rcases blank with ((rfl | rfl) | rfl) | rfl <;> cases number
  · have list : c ≠ '[' := by
      rintro rfl
      cases number
    have record : c ≠ '{' := by
      rintro rfl
      cases number
    rw [Frame.ofOpener?, if_neg list, if_neg record]
  · rintro rfl
    cases number

/-- Every value of the grammar is passed over. -/
theorem IsValue.isSkipped {value : List Char} (h : IsValue value) : IsSkipped value := by
  induction h with
  | null => exact .of_scalar rfl rfl rfl (by decide) fun s ends => rfl
  | bool value =>
    cases value with
    | true => exact .of_scalar rfl rfl rfl (by decide) fun s ends => rfl
    | false => exact .of_scalar rfl rfl rfl (by decide) fun s ends => rfl
  | number n =>
    obtain ⟨c, rest, text, number⟩ := n.exists_text
    obtain ⟨mark, scalar, other⟩ := begins_number number
    exact .of_scalar text mark scalar other fun s ends => skipScalar_number n ends
  | string pieces =>
    exact .of_scalar rfl rfl rfl (by decide) fun s ends => skipString_append pieces s
  | list items finish values ih =>
    have opens : Frame.ofOpener? '[' = some .list := rfl
    refine .of_items opens rfl (by decide) (fun text member => ?_) finish
    obtain ⟨item, here, rfl⟩ := List.mem_map.mp member
    exact (ih item here).item
  | record members finish values ih =>
    have opens : Frame.ofOpener? '{' = some .record := rfl
    refine .of_items opens rfl (by decide) (fun text member => ?_) finish
    obtain ⟨m, here, rfl⟩ := List.mem_map.mp member
    exact (ih m here).member

/-- A value is passed over, and nothing behind it. -/
theorem skipValue_append {value : List Char} (h : IsValue value) (b : Blanks)
    (ends : EndsValue s) : skipValue (b.text ++ (value ++ s)) = .ok s :=
  (h.isSkipped.skips [] b s ends).trans (skipFrom_following_nil s)

end Famicom.Json
