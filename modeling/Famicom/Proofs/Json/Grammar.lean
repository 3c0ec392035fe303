import Famicom.Json.Scan

/-!
# The grammar of JSON

The texts that are JSON, told without a reader. A text is put together from pieces that carry the
proof that they may stand where they stand, so that every text that can be put together is one of
the grammar and every one of the grammar can be put together.

A string is spelled by pieces that stand for 16-bit units or for characters. The grammar lets halves
of characters stand alone, but then the pieces spell no text.

## Main definitions

* `Blanks`, `Digits`, `NumberSpelling`, `StringPiece` — blanks, numbers and strings
* `StringPiece.decode?` — the characters that are spelled
* `Item`, `Member`, `listText`, `recordText` — lists and records
* `IsValue` — a text is a value
-/

namespace Famicom.Json

/-- Any number of blanks. -/
structure Blanks where
  text : List Char
  areBlank : ∀ c ∈ text, isBlank c = true

/-- No blanks. -/
def Blanks.none : Blanks :=
  ⟨[], nofun⟩

/-! ### Numbers -/

/-- At least one digit. -/
structure Digits where
  first : Char
  rest : List Char
  areDigits : ∀ c ∈ first :: rest, isDigit c = true

/-- The text of digits. -/
def Digits.text (d : Digits) : List Char :=
  d.first :: d.rest

/-- The exponent of a number. -/
structure ExponentSpelling where
  isCapital : Bool
  /-- The sign, if there is one, and whether it is a minus. -/
  sign : Option Bool
  digits : Digits

namespace ExponentSpelling

/-- The letter in front of an exponent. -/
def letter (e : ExponentSpelling) : Char :=
  if e.isCapital then 'E' else 'e'

/-- The text of the sign of an exponent. -/
def signText (e : ExponentSpelling) : List Char :=
  match e.sign with
  | some true => ['-']
  | some false => ['+']
  | none => []

/-- The text of an exponent. -/
def text (e : ExponentSpelling) : List Char :=
  e.letter :: (e.signText ++ e.digits.text)

end ExponentSpelling

/-- A number. -/
structure NumberSpelling where
  isNegative : Bool := false
  whole : Digits
  /-- A zero in front stands alone. -/
  isShort : whole.first = '0' → whole.rest = []
  fraction : Option Digits := none
  exponent : Option ExponentSpelling := none

namespace NumberSpelling

/-- The text of the point and the digits behind it. -/
def fractionText (n : NumberSpelling) : List Char :=
  n.fraction.elim [] fun digits => '.' :: digits.text

/-- The text of the exponent. -/
def exponentText (n : NumberSpelling) : List Char :=
  n.exponent.elim [] ExponentSpelling.text

/-- The text of a number without its sign. -/
def unsignedText (n : NumberSpelling) : List Char :=
  n.whole.text ++ (n.fractionText ++ n.exponentText)

/-- The text of a number. -/
def text (n : NumberSpelling) : List Char :=
  if n.isNegative then '-' :: n.unsignedText else n.unsignedText

end NumberSpelling

/-! ### Strings -/

/-- A hexadecimal digit, in upper or lower case. -/
structure HexDigit where
  letter : Char
  value : Nat
  isDigit : hexValue? letter = some value

/-- A 16-bit unit in hexadecimal digits. -/
structure CodeUnit where
  first : HexDigit
  second : HexDigit
  third : HexDigit
  fourth : HexDigit

namespace CodeUnit

/-- The digits of a unit. -/
def text (u : CodeUnit) : List Char :=
  [u.first.letter, u.second.letter, u.third.letter, u.fourth.letter]

/-- The value of a unit. -/
def value (u : CodeUnit) : Nat :=
  ((u.first.value * 16 + u.second.value) * 16 + u.third.value) * 16 + u.fourth.value

/-- The character that two halves stand for. -/
def join (high low : CodeUnit) : Char :=
  Char.ofNat ((high.value - 0xD800) * 1024 + (low.value - 0xDC00) + 0x10000)

end CodeUnit

/-- A piece of a string. -/
inductive StringPiece where
  /-- A character that stands for itself. -/
  | plain (c : Char) (isPlain : c ≠ '"' ∧ c ≠ '\\' ∧ isControl c = false)
  /-- A letter that stands for a character. -/
  | escaped (letter value : Char) (isEscape : simpleEscape? letter = some value)
  /-- A number that stands for a unit. -/
  | unit (u : CodeUnit)

namespace StringPiece

/-- The text of a piece. -/
def text : StringPiece → List Char
  | plain c _ => [c]
  | escaped letter _ _ => ['\\', letter]
  | unit u => '\\' :: 'u' :: u.text

/-- The characters that pieces spell. Halves of characters that stand alone spell nothing. -/
def decode? : List StringPiece → Option (List Char)
  | [] => some []
  | plain c _ :: pieces => (decode? pieces).map (c :: ·)
  | escaped _ value _ :: pieces => (decode? pieces).map (value :: ·)
  | unit u :: pieces =>
    if isLowSurrogate u.value then
      none
    else if isHighSurrogate u.value then
      match pieces with
      | unit low :: pieces =>
        if isLowSurrogate low.value then (decode? pieces).map (u.join low :: ·) else none
      | _ => none
    else
      (decode? pieces).map (Char.ofNat u.value :: ·)

end StringPiece

/-- The text of a string behind its opening quote. -/
def stringEnd (pieces : List StringPiece) : List Char :=
  pieces.flatMap StringPiece.text ++ ['"']

/-- The text of a string. -/
def stringText (pieces : List StringPiece) : List Char :=
  '"' :: stringEnd pieces

/-! ### Lists and records -/

/-- Texts with commas between them, and one in front unless they are the first. -/
def separated (isFirst : Bool) : List (List Char) → List Char
  | [] => []
  | text :: texts => (if isFirst then [] else [',']) ++ (text ++ separated false texts)

/-- An item of a list, with blanks around it. -/
structure Item (α : Type) where
  before : Blanks
  value : α
  after : Blanks

/-- The text of an item whose value has a text. -/
def Item.text {α : Type} (textOf : α → List Char) (item : Item α) : List Char :=
  item.before.text ++ (textOf item.value ++ item.after.text)

/-- A member of a record: its name, and its value as an item. -/
structure Member (α : Type) where
  before : Blanks
  name : List StringPiece
  between : Blanks
  item : Item α

/-- The text of a member whose value has a text. -/
def Member.text {α : Type} (textOf : α → List Char) (m : Member α) : List Char :=
  m.before.text ++ (stringText m.name ++ (m.between.text ++ ':' :: m.item.text textOf))

variable {α : Type} (textOf : α → List Char)

/-- The text of a list behind its opening bracket. -/
def listEnd (items : List (Item α)) (finish : Blanks) : List Char :=
  separated true (items.map (Item.text textOf)) ++ (finish.text ++ [']'])

/-- The text of a record behind its opening brace. -/
def recordEnd (members : List (Member α)) (finish : Blanks) : List Char :=
  separated true (members.map (Member.text textOf)) ++ (finish.text ++ ['}'])

/-- The text of a list. -/
def listText (items : List (Item α)) (finish : Blanks) : List Char :=
  '[' :: listEnd textOf items finish

/-- The text of a record. -/
def recordText (members : List (Member α)) (finish : Blanks) : List Char :=
  '{' :: recordEnd textOf members finish

/-! ### Values -/

/-- The text of a truth value. -/
def boolText (value : Bool) : List Char :=
  if value then ['t', 'r', 'u', 'e'] else ['f', 'a', 'l', 's', 'e']

/-- The text of nothing. -/
def nullText : List Char :=
  ['n', 'u', 'l', 'l']

/-- A text is a value, of any depth. -/
inductive IsValue : List Char → Prop
  | null : IsValue nullText
  | bool (value : Bool) : IsValue (boolText value)
  | number (n : NumberSpelling) : IsValue n.text
  | string (pieces : List StringPiece) : IsValue (stringText pieces)
  | list (items : List (Item (List Char))) (finish : Blanks)
    (values : ∀ item ∈ items, IsValue item.value) : IsValue (listText id items finish)
  | record (members : List (Member (List Char))) (finish : Blanks)
    (values : ∀ m ∈ members, IsValue m.item.value) : IsValue (recordText id members finish)

/-- What may follow a value. -/
def isDelimiter (c : Char) : Bool :=
  isBlank c || c = ',' || c = ']' || c = '}'

/-- A text that may follow a value. -/
def EndsValue (s : List Char) : Prop :=
  ∀ c ∈ s.head?, isDelimiter c = true

end Famicom.Json
