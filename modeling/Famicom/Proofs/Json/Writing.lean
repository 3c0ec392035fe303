import Famicom.Json.Document
import Famicom.Proofs.Json.Scalars
import Famicom.Proofs.Json.Vocabulary

/-!
# What is written is of the grammar

Every document is laid out as a text of the grammar: natural numbers in digits, strings in pieces
that spell them, and records with a line for every member.

## Main definitions

* `NaturalSpelling.written`, `TextSpelling.written` — numbers and strings as they are written
* `writtenMember`, `RecordSpelling.written` — members and records as they are laid out

## Main results

* `NaturalSpelling.text_written`, `TextSpelling.text_written` — these are the texts of numbers and
  strings
* `RecordSpelling.text_written` — a record is laid out as a text of the grammar
-/

namespace Famicom.Json

/-! ### Numbers -/

theorem isDigit_of_isDigit {c : Char} (digit : c.isDigit = true) : isDigit c = true := by
  simpa [isDigit, Char.isDigit, UInt32.le_iff_toNat_le, Char.le_def] using digit

/-- The digits of a number. -/
def Digits.written (n : Nat) : Digits where
  first := (Nat.toDigits 10 n).head (Nat.toDigits_ne_nil)
  rest := (Nat.toDigits 10 n).tail
  areDigits c member := by
    rw [List.cons_head_tail] at member
    exact isDigit_of_isDigit (Nat.isDigit_of_mem_toDigits (by decide) (by decide) member)

theorem Digits.text_written (n : Nat) : (written n).text = Nat.toDigits 10 n :=
  List.cons_head_tail _

/-- A number with a zero in front is a zero. The induction is on the number without its last
digit. -/
theorem toDigits_of_zero_first {n : Nat} {rest : List Char}
    (digits : Nat.toDigits 10 n = '0' :: rest) : rest = [] := by
  induction n using Nat.strongRecOn generalizing rest with
  | ind n ih =>
    by_cases small : n < 10
    · rw [Nat.toDigits_of_lt_base small] at digits
      exact (List.cons.inj digits).2.symm
    · have large : 10 ≤ n := Nat.le_of_not_lt small
      rw [Nat.toDigits_of_base_le (by decide) large] at digits
      cases before : Nat.toDigits 10 (n / 10) with
      | nil => exact absurd before Nat.toDigits_ne_nil
      | cons first tail =>
        rw [before, List.cons_append] at digits
        obtain ⟨rfl, -⟩ := List.cons.inj digits
        have alone := ih (n / 10) (Nat.div_lt_self (by omega) (by decide)) before
        -- What is in front of the last digit is zero, so there is nothing in front of it.
        have zero : n / 10 = 0 := by
          rw [← Nat.ofDigitChars_toDigits (b := 10) (n := n / 10) (by decide) (by decide), before,
            alone]
          rfl
        omega

variable {limit n : Nat}

/-- A number as it is written. -/
def NaturalSpelling.written (below : n < limit) : NaturalSpelling limit where
  digits := .written n
  isShort zero := by
    refine toDigits_of_zero_first (n := n) ?_
    rw [← Digits.text_written n, Digits.text, zero]
  isBelow := by
    rwa [Digits.text_written, Nat.ofDigitChars_toDigits (by decide) (by decide)]

theorem NaturalSpelling.text_written (below : n < limit) :
    (written below).text = (toString n).toList := by
  have digits : (written below).text = (Digits.written n).text ++ ([] ++ []) := rfl
  rw [digits, List.append_nil, List.append_nil, Digits.text_written, Nat.toString_eq_repr,
    Nat.repr_eq_ofList_toDigits, String.toList_ofList]

theorem NaturalSpelling.value_written (below : n < limit) : (written below).value = n := by
  rw [value, written, Digits.text_written, Nat.ofDigitChars_toDigits (by decide) (by decide)]

/-! ### Strings -/

/-- A hexadecimal digit as it is written. -/
def HexDigit.written (n : Fin 16) : HexDigit where
  letter := Nat.digitChar n
  value := n
  isDigit := by revert n; decide

/-- A unit as it is written. -/
def CodeUnit.written (n : Nat) : CodeUnit where
  first := .written (Fin.ofNat 16 (n / 4096))
  second := .written (Fin.ofNat 16 (n / 256))
  third := .written (Fin.ofNat 16 (n / 16))
  fourth := .written (Fin.ofNat 16 n)

theorem CodeUnit.value_written {n : Nat} (control : n < 32) : (written n).value = n := by
  revert n
  decide

theorem CodeUnit.text_written {n : Nat} (control : n < 32) :
    (written n).text = (Hex.lower 4 n).toList := by
  rw [Hex.lower, Hex.padded, String.toList_ofList]
  revert n
  decide

/-- The letter that stands for a character, if there is one that is written. -/
def shortLetter? (c : Char) : Option Char :=
  match c with
  | '"' => some '"'
  | '\\' => some '\\'
  | '\x08' => some 'b'
  | '\x0c' => some 'f'
  | '\n' => some 'n'
  | '\r' => some 'r'
  | '\t' => some 't'
  | _ => none

theorem simpleEscape?_of_shortLetter? {c letter : Char} (short : shortLetter? c = some letter) :
    simpleEscape? letter = some c := by
  unfold shortLetter? at short
  split at short <;> cases short <;> rfl

theorem ne_of_shortLetter?_eq_none {c : Char} (long : shortLetter? c = none) :
    c ≠ '"' ∧ c ≠ '\\' := by
  constructor <;> (rintro rfl; cases long)

/-- The piece that stands for a character where it is written. -/
def StringPiece.written (c : Char) : StringPiece :=
  match short : shortLetter? c with
  | some letter => .escaped letter c (simpleEscape?_of_shortLetter? short)
  | none =>
    if control : isControl c = true then
      .unit (.written c.toNat)
    else
      .plain c ⟨(ne_of_shortLetter?_eq_none short).1, (ne_of_shortLetter?_eq_none short).2,
        Bool.eq_false_iff.mpr control⟩

theorem StringPiece.text_written (c : Char) : (written c).text = escape c := by
  unfold written
  split
  · rename_i letter short
    unfold shortLetter? at short
    split at short <;> cases short <;> rfl
  · rename_i long
    have escaped : escape c =
        if c.toNat < 32 then '\\' :: 'u' :: (Hex.lower 4 c.toNat).toList else [c] := by
      unfold escape
      split
      all_goals first | cases long | rfl
    rw [escaped]
    by_cases control : c.toNat < 32
    · rw [dif_pos (show isControl c = true from decide_eq_true control), if_pos control, text,
        CodeUnit.text_written control]
    · rw [dif_neg (show ¬ isControl c = true from fun h => control (of_decide_eq_true h)),
        if_neg control]
      rfl

theorem StringPiece.decode?_written (c : Char) (pieces : List StringPiece) :
    decode? (written c :: pieces) = (decode? pieces).map (c :: ·) := by
  unfold written
  split
  · rfl
  · split
    · rename_i control
      have small : c.toNat < 32 := of_decide_eq_true control
      have value := CodeUnit.value_written small
      have notLow : isLowSurrogate c.toNat = false := by
        simp only [isLowSurrogate, Bool.and_eq_false_iff, decide_eq_false_iff_not]
        omega
      have notHigh : isHighSurrogate c.toNat = false := by
        simp only [isHighSurrogate, Bool.and_eq_false_iff, decide_eq_false_iff_not]
        omega
      rw [decode?.eq_def]
      simp only [value, notLow, notHigh, Bool.false_eq_true, if_false, Char.ofNat_toNat]
    · rfl

theorem StringPiece.decode?_map_written (chars : List Char) :
    decode? (chars.map written) = some chars := by
  induction chars with
  | nil => rfl
  | cons c chars ih => rw [List.map_cons, decode?_written, ih, Option.map_some]

/-- A string as it is written. -/
def TextSpelling.written (chars : List Char) : TextSpelling where
  pieces := chars.map .written
  chars := chars
  spells := StringPiece.decode?_map_written chars

theorem TextSpelling.text_written (chars : List Char) :
    stringText (written chars).pieces = quote chars := by
  rw [stringText, stringEnd, written, quote, List.flatMap_map]
  simp only [StringPiece.text_written]

/-! ### Records -/

/-- The beginning of a line. -/
def lineStart (depth : Nat) : Blanks where
  text := newLine depth
  areBlank c member := by
    rcases List.mem_cons.mp member with rfl | blank
    · rfl
    · rw [List.eq_of_mem_replicate blank]
      rfl

/-- A single blank. -/
def oneBlank : Blanks where
  text := [' ']
  areBlank c member := by
    rw [List.mem_singleton.mp member]
    rfl

/-- A member as it is laid out in a record that begins at a depth. -/
def writtenMember {α : Type} (depth : Nat) (name : String) (value : α) : Member α where
  before := lineStart (depth + 1)
  name := (TextSpelling.written name.toList).pieces
  between := .none
  item := ⟨oneBlank, value, .none⟩

section Layout

variable {α : Type} (textOf : α → List Char) (nameOf : α → String) (documentOf : α → Document)
  (depth : Nat)

theorem text_writtenMember {value : α}
    (text : textOf value = (documentOf value).layOut (depth + 1)) :
    (writtenMember depth (nameOf value) value).text textOf =
      newLine (depth + 1) ++ quote (nameOf value).toList ++ [':', ' '] ++
        (documentOf value).layOut (depth + 1) := by
  simp [Member.text, writtenMember, TextSpelling.text_written, Item.text, text, lineStart, oneBlank,
    Blanks.none]

theorem layOut_members {values : List α}
    (text : ∀ value ∈ values, textOf value = (documentOf value).layOut (depth + 1)) :
    (Members.ofList (values.map fun value => (nameOf value, documentOf value))).layOut depth =
      separated false ((values.map fun value =>
        writtenMember depth (nameOf value) value).map (Member.text textOf)) ++
        ((lineStart depth).text ++ ['}']) := by
  induction values with
  | nil => rfl
  | cons value values ih =>
    obtain ⟨here, later⟩ := List.forall_mem_cons.mp text
    rw [List.map_cons, Members.ofList, Members.layOut, ih later,
      ← text_writtenMember textOf nameOf documentOf depth here, List.map_cons, List.map_cons,
      separated, if_neg Bool.false_ne_true, List.singleton_append, List.cons_append,
      List.append_assoc]

/-- A record that is not empty is laid out as a text of the grammar. -/
theorem layOut_ofMembers {values : List α} (nonempty : values ≠ [])
    (text : ∀ value ∈ values, textOf value = (documentOf value).layOut (depth + 1)) :
    (Document.ofMembers (values.map fun value => (nameOf value, documentOf value))).layOut depth =
      recordText textOf (values.map fun value => writtenMember depth (nameOf value) value)
        (lineStart depth) := by
  cases values with
  | nil => exact absurd rfl nonempty
  | cons value values =>
    obtain ⟨here, later⟩ := List.forall_mem_cons.mp text
    rw [List.map_cons, Document.ofMembers, Members.ofList, Document.layOut,
      layOut_members textOf nameOf documentOf depth later,
      ← text_writtenMember textOf nameOf documentOf depth here, recordText, recordEnd,
      List.map_cons, List.map_cons, separated, if_pos rfl, List.nil_append, List.append_assoc]

end Layout

section Written

variable {α σ : Type} {v : Vocabulary α σ} (depth : Nat) (values : List α)

theorem name?_writtenMember (name : String) (value : α) :
    (writtenMember depth name value).name? = some name := by
  rw [Member.name?, writtenMember, (TextSpelling.written name.toList).spells]
  exact congrArg some String.ofList_toList

/-- A record of known members as it is laid out. -/
def RecordSpelling.written (v : Vocabulary α σ) (depth : Nat) (values : List α) :
    RecordSpelling v where
  members := values.map fun value => writtenMember depth (v.name value) (.known value)
  finish := lineStart depth
  named m member := by
    obtain ⟨value, -, rfl⟩ := List.mem_map.mp member
    exact name?_writtenMember depth (v.name value) (Content.known value)

theorem RecordSpelling.values_written : (written v depth values).values = values := by
  rw [RecordSpelling.values, Vocabulary.values, written, List.filterMap_map]
  exact List.filterMap_some

theorem RecordSpelling.namesAreText_written : (written v depth values).NamesAreText := by
  intro m member
  obtain ⟨value, -, rfl⟩ := List.mem_map.mp member
  rw [name?_writtenMember]
  rfl

/-- A record that is not empty is laid out as its spelling. -/
theorem RecordSpelling.text_written (documentOf : α → Document) (nonempty : values ≠ [])
    (text : ∀ value ∈ values, v.text value = (documentOf value).layOut (depth + 1)) :
    (written v depth values).text =
      (Document.ofMembers (values.map fun value => (v.name value, documentOf value))).layOut
        depth := by
  rw [layOut_ofMembers v.text v.name documentOf depth nonempty text, RecordSpelling.text, written,
    recordText, recordText, recordEnd, recordEnd, List.map_map, List.map_map]
  rfl

end Written

end Famicom.Json
