import Famicom.Json.Record
import Famicom.Proofs.Json.Skipping

/-!
# Values without parts are read

## Main definitions

* `NaturalSpelling` — a natural number below a limit
* `TextSpelling` — a string that spells a text

## Main results

* `readBool_append`, `readNatural_append`, `readString?_append` — truth values, natural numbers, and
  strings or nothing
-/

namespace Famicom.Json

/-- A natural number below a limit, in digits only. -/
structure NaturalSpelling (limit : Nat) where
  digits : Digits
  /-- A zero in front stands alone. -/
  isShort : digits.first = '0' → digits.rest = []
  isBelow : Nat.ofDigitChars 10 digits.text 0 < limit

namespace NaturalSpelling

variable {limit : Nat} (n : NaturalSpelling limit)

/-- The number that is spelled. -/
def value : Nat :=
  Nat.ofDigitChars 10 n.digits.text 0

/-- The spelling as one of a number. -/
def number : NumberSpelling where
  whole := n.digits
  isShort := n.isShort

/-- The text of a natural number. -/
def text : List Char :=
  n.number.text

theorem natural?_taken (small : limit ≤ NumberText.wordLimit) :
    n.number.taken.natural? = some n.value := by
  have below : NumberText.valueOf n.digits.text < NumberText.wordLimit :=
    Nat.lt_of_lt_of_le n.isBelow small
  have taken : n.number.taken = ⟨false, n.digits.text, none, none⟩ := rfl
  simp only [taken, NumberText.natural?, Option.isSome_none, Bool.or_false, Bool.false_eq_true,
    if_false, if_pos below]
  rfl

end NaturalSpelling

/-- A string that spells a text. -/
structure TextSpelling where
  pieces : List StringPiece
  chars : List Char
  spells : StringPiece.decode? pieces = some chars

/-- The text that is spelled. -/
def TextSpelling.value (t : TextSpelling) : String :=
  String.ofList t.chars

/-- The text of a string, or of nothing. -/
def textOfString? : Option TextSpelling → List Char
  | some t => stringText t.pieces
  | none => nullText

variable {s : List Char}

theorem readBool_append (value : Bool) (b : Blanks) (s : List Char) :
    readBool (b.text ++ (boolText value ++ s)) = .ok (value, s) := by
  have begins : skipBlanks (boolText value ++ s) = boolText value ++ s := by
    cases value <;> exact skipBlanks_cons rfl
  rw [readBool, skipBlanks_append, begins]
  cases value <;> rfl

theorem readNatural_append {limit : Nat} (small : limit ≤ NumberText.wordLimit)
    (n : NaturalSpelling limit) (b : Blanks) (ends : EndsValue s) :
    readNatural limit (b.text ++ (n.text ++ s)) = .ok (n.value, s) := by
  have scanned := scanNumber_append .truncated n.number ends
  have digit := n.digits.isDigit_first
  obtain ⟨mark, -, -⟩ := begins_number (by rw [digit, Bool.or_true])
  have text : n.text ++ s = n.digits.first :: (n.digits.rest ++ s) := by
    have unsigned : n.text = n.digits.text ++ ([] ++ []) := rfl
    rw [unsigned, List.append_nil, List.append_nil, Digits.text, List.cons_append]
  have begins : skipBlanks (n.text ++ s) = n.digits.first :: (n.digits.rest ++ s) := by
    rw [text]
    exact skipBlanks_cons mark
  rw [show n.number.text ++ s = n.text ++ s from rfl, text] at scanned
  have taken := n.natural?_taken small
  have below : n.value < limit := n.isBelow
  rw [readNatural, skipBlanks_append, begins]
  simp only [digit, Bool.or_true, if_true, scanned, bind, Except.bind, taken, if_pos below]
  rfl

/-- A string that spells a text, or nothing, is read as what it is. -/
theorem readString?_append (t : Option TextSpelling) (b : Blanks) (s : List Char) :
    readString? (b.text ++ (textOfString? t ++ s)) = .ok (t.map TextSpelling.value, s) := by
  cases t with
  | none =>
    have begins : skipBlanks (nullText ++ s) = nullText ++ s := skipBlanks_cons rfl
    rw [textOfString?, readString?, skipBlanks_append, begins]
    rfl
  | some t =>
    have begins : skipBlanks (stringText t.pieces ++ s) = '"' :: (stringEnd t.pieces ++ s) :=
      skipBlanks_cons rfl
    have read : readString (stringEnd t.pieces ++ s) = .ok (t.chars, s) := by
      rw [readString_append, t.spells]
      rfl
    rw [textOfString?, readString?, skipBlanks_append, begins]
    simp only [read]
    rfl

end Famicom.Json
