/-!
# Scanning JSON text

The pieces that JSON text is made of: blanks, words, numbers and strings. Every scanner takes the
text from its position on and gives back the rest, or a flaw. The flaw that it finds first, from
left to right, is the one it reports.

Where a number may end the text, `atEnd` says whether a text that ends inside it has been cut short
or was never JSON: a number that is wanted has been cut short, one that is passed over is malformed.

## Main definitions

* `Json.Flaw` — what is wrong with a text
* `Json.NumberText`, `Json.scanNumber` — a number taken apart
* `Json.readString`, `Json.skipString` — the characters of a string, or only its end
-/

namespace Famicom.Json

/-- What is wrong with a text. -/
inductive Flaw where
  /-- The text is no JSON. -/
  | malformed
  /-- A value has the wrong type or is out of its range, or a member comes twice. -/
  | mismatched
  /-- The text ends too early. -/
  | truncated
  deriving DecidableEq, Repr

/-! ### Blanks, words and digits -/

/-- The characters that mean nothing between tokens. -/
def isBlank (c : Char) : Bool :=
  c = ' ' || c = '\n' || c = '\t' || c = '\r'

/-- Passes over blanks. -/
def skipBlanks (s : List Char) : List Char :=
  s.dropWhile isBlank

/-- Passes over a word that has to come next. -/
def expectWord : List Char → List Char → Except Flaw (List Char)
  | [], s => .ok s
  | _ :: _, [] => .error .truncated
  | w :: word, c :: s => if c = w then expectWord word s else .error .malformed

/-- A decimal digit. -/
def isDigit (c : Char) : Bool :=
  '0' ≤ c && c ≤ '9'

/-- The value of a decimal digit. -/
def digitValue (c : Char) : Nat :=
  c.toNat - '0'.toNat

/-- The value of a hexadecimal digit. -/
def hexValue? (c : Char) : Option Nat :=
  if isDigit c then some (digitValue c)
  else if 'a' ≤ c && c ≤ 'f' then some (c.toNat - 'a'.toNat + 10)
  else if 'A' ≤ c && c ≤ 'F' then some (c.toNat - 'A'.toNat + 10)
  else none

/-! ### Numbers -/

/-- A number taken apart. -/
structure NumberText where
  negative : Bool
  /-- The digits before the point. -/
  whole : List Char
  /-- The digits behind the point, if there is one. -/
  fraction : Option (List Char)
  /-- The sign and the digits of the exponent, if there is one. -/
  exponent : Option (Bool × List Char)
  deriving DecidableEq, Repr

/-- The digits that have to come next, at least one. -/
def scanDigits (atEnd : Flaw) (s : List Char) : Except Flaw (List Char × List Char) :=
  match s with
  | [] => .error atEnd
  | c :: rest =>
    if isDigit c then .ok (c :: rest.takeWhile isDigit, rest.dropWhile isDigit)
    else .error .malformed

/-- The digits before the point. A zero stands alone. -/
def scanWhole (atEnd : Flaw) (s : List Char) : Except Flaw (List Char × List Char) :=
  match s with
  | '0' :: rest =>
    match rest with
    | c :: _ => if isDigit c then .error .malformed else .ok (['0'], rest)
    | [] => .ok (['0'], rest)
  | s => scanDigits atEnd s

/-- The point and the digits behind it, if there is one. -/
def scanFraction (atEnd : Flaw) (s : List Char) : Except Flaw (Option (List Char) × List Char) :=
  match s with
  | '.' :: rest => do
    let (digits, rest) ← scanDigits atEnd rest
    pure (some digits, rest)
  | s => .ok (none, s)

/-- A sign, if there is one. -/
def scanSign (s : List Char) : Bool × List Char :=
  match s with
  | '-' :: rest => (true, rest)
  | '+' :: rest => (false, rest)
  | s => (false, s)

/-- The exponent, if there is one. -/
def scanExponent (atEnd : Flaw) (s : List Char) :
    Except Flaw (Option (Bool × List Char) × List Char) :=
  match s with
  | [] => .ok (none, [])
  | c :: rest =>
    if c = 'e' || c = 'E' then do
      let (negative, rest) := scanSign rest
      let (digits, rest) ← scanDigits atEnd rest
      pure (some (negative, digits), rest)
    else
      .ok (none, s)

/-- A number without its sign. -/
def scanUnsigned (atEnd : Flaw) (negative : Bool) (s : List Char) :
    Except Flaw (NumberText × List Char) := do
  let (whole, s) ← scanWhole atEnd s
  let (fraction, s) ← scanFraction atEnd s
  let (exponent, s) ← scanExponent atEnd s
  pure (⟨negative, whole, fraction, exponent⟩, s)

/-- A number. `atEnd` is the flaw of a text that ends inside it. -/
def scanNumber (atEnd : Flaw) (s : List Char) : Except Flaw (NumberText × List Char) :=
  match s with
  | '-' :: rest => scanUnsigned atEnd true rest
  | s => scanUnsigned atEnd false s

namespace NumberText

/-- The first number that does not fit 64 bits. -/
def wordLimit : Nat :=
  18446744073709551616

/-- The value of digits. -/
def valueOf (digits : List Char) : Nat :=
  digits.foldl (fun n c => 10 * n + digitValue c) 0

/-- The value, if the number is written without sign, point and exponent and fits 64 bits. -/
def natural? (n : NumberText) : Option Nat :=
  if n.negative || n.fraction.isSome || n.exponent.isSome then none
  else if valueOf n.whole < wordLimit then some (valueOf n.whole)
  else none

/-- The leading digits of a number as a 64-bit word, and the power of ten that is missing. -/
structure Scale where
  significand : Nat := 0
  power : Int := 0
  /-- The next digit does not fit the word. -/
  full : Bool := false
  deriving DecidableEq, Repr

/-- Adds a digit before the point. When the word is full, digits count only as places. -/
def Scale.addWhole (s : Scale) (c : Char) : Scale :=
  let next := 10 * s.significand + digitValue c
  if s.full || wordLimit ≤ next then { s with power := s.power + 1, full := true }
  else { s with significand := next }

/-- Adds a digit behind the point. When the word is full, digits do not count. -/
def Scale.addFraction (s : Scale) (c : Char) : Scale :=
  let next := 10 * s.significand + digitValue c
  if s.full || wordLimit ≤ next then { s with full := true }
  else { s with significand := next, power := s.power - 1 }

/-- The number without its exponent. -/
def scale (n : NumberText) : Scale :=
  let whole := n.whole.foldl Scale.addWhole {}
  -- A digit behind the point is tried even when one before it did not fit: it may be smaller.
  (n.fraction.getD []).foldl Scale.addFraction { whole with full := false }

/-- The largest exponent that is taken at its value. -/
def largestExponent : Nat :=
  2147483647

/-- The largest power of ten in double precision. -/
def largestPower : Nat :=
  308

/-- A word times a power of ten is beyond double precision. -/
def exceedsDouble (significand : Nat) (power : Int) : Bool :=
  if power < 0 || significand = 0 then false
  else if (largestPower : Int) < power then true
  else (significand.toUInt64.toFloat * Float.ofScientific 1 false power.toNat).isInf

/-- The number is beyond double precision. -/
def isTooLarge (n : NumberText) : Bool :=
  let s := n.scale
  match n.exponent with
  | none => exceedsDouble s.significand s.power
  | some (negative, digits) =>
    let exponent := valueOf digits
    if largestExponent < exponent then
      !negative && s.significand != 0
    else
      exceedsDouble s.significand (if negative then s.power - exponent else s.power + exponent)

end NumberText

/-! ### Strings -/

/-- Four hexadecimal digits. A text with fewer than four bytes left has ended too early. -/
def readHex4 (s : List Char) : Except Flaw (Nat × List Char) :=
  match s with
  | a :: b :: c :: d :: rest =>
    match hexValue? a, hexValue? b, hexValue? c, hexValue? d with
    | some a, some b, some c, some d => .ok (((a * 16 + b) * 16 + c) * 16 + d, rest)
    | _, _, _, _ => .error .malformed
  | s => .error (if (String.ofList s).utf8ByteSize < 4 then .truncated else .malformed)

/-- The first half of a character that takes two 16-bit units. -/
def isHighSurrogate (n : Nat) : Bool :=
  0xD800 ≤ n && n ≤ 0xDBFF

/-- The second half of a character that takes two 16-bit units. -/
def isLowSurrogate (n : Nat) : Bool :=
  0xDC00 ≤ n && n ≤ 0xDFFF

/-- The second half of a character whose first half has been read. -/
def readLowSurrogate (high : Nat) (s : List Char) : Except Flaw (Char × List Char) :=
  match s with
  | [] => .error .truncated
  | '\\' :: [] => .error .truncated
  | '\\' :: 'u' :: rest => do
    let (low, rest) ← readHex4 rest
    if isLowSurrogate low then
      pure (Char.ofNat ((high - 0xD800) * 1024 + (low - 0xDC00) + 0x10000), rest)
    else
      throw .malformed
  | _ => .error .malformed

/-- The character of a numbered escape. -/
def readUnicodeEscape (s : List Char) : Except Flaw (Char × List Char) := do
  let (n, rest) ← readHex4 s
  if isLowSurrogate n then throw .malformed
  else if isHighSurrogate n then readLowSurrogate n rest
  else pure (Char.ofNat n, rest)

/-- The character of an escape with one letter. -/
def simpleEscape? (c : Char) : Option Char :=
  match c with
  | '"' => some '"'
  | '\\' => some '\\'
  | '/' => some '/'
  | 'b' => some '\x08'
  | 'f' => some '\x0c'
  | 'n' => some '\n'
  | 'r' => some '\r'
  | 't' => some '\t'
  | _ => none

/-- The character of an escape, behind its backslash. -/
def readEscape (s : List Char) : Except Flaw (Char × List Char) :=
  match s with
  | [] => .error .truncated
  | c :: rest =>
    match simpleEscape? c with
    | some value => .ok (value, rest)
    | none => if c = 'u' then readUnicodeEscape rest else .error .malformed

/-- Passes over an escape, behind its backslash. Halves of characters may stand alone. -/
def skipEscape (s : List Char) : Except Flaw (List Char) :=
  match s with
  | [] => .error .truncated
  | c :: rest =>
    match simpleEscape? c with
    | some _ => .ok rest
    | none =>
      if c = 'u' then do
        let (_, rest) ← readHex4 rest
        pure rest
      else
        .error .malformed

/-- A character that has to be escaped in a string. -/
def isControl (c : Char) : Bool :=
  c.toNat < 32

theorem length_of_readHex4 {s rest : List Char} {n : Nat} (h : readHex4 s = .ok (n, rest)) :
    rest.length < s.length := by
  unfold readHex4 at h
  split at h
  · split at h <;> simp_all
    omega
  · simp at h

theorem length_of_readLowSurrogate {high : Nat} {s rest : List Char} {c : Char}
    (h : readLowSurrogate high s = .ok (c, rest)) : rest.length < s.length := by
  unfold readLowSurrogate at h
  split at h
  · simp at h
  · simp at h
  · rename_i tail
    cases low : readHex4 tail with
    | error flaw => simp [low, bind, Except.bind] at h
    | ok p =>
      have := length_of_readHex4 low
      simp only [low, bind, Except.bind] at h
      split at h
      · simp only [pure, Except.pure, Except.ok.injEq, Prod.mk.injEq] at h
        simp only [← h.2, List.length_cons]
        omega
      · simp [throw, throwThe, MonadExceptOf.throw] at h
  · simp at h

theorem length_of_readEscape {s rest : List Char} {c : Char} (h : readEscape s = .ok (c, rest)) :
    rest.length < s.length := by
  unfold readEscape at h
  split at h
  · simp at h
  · rename_i first tail
    split at h
    · simp only [Except.ok.injEq, Prod.mk.injEq] at h
      simp [← h.2]
    · split at h
      · unfold readUnicodeEscape at h
        cases code : readHex4 tail with
        | error flaw => simp [code, bind, Except.bind] at h
        | ok p =>
          have := length_of_readHex4 code
          simp only [code, bind, Except.bind] at h
          split at h
          · simp [throw, throwThe, MonadExceptOf.throw] at h
          · split at h
            · have := length_of_readLowSurrogate h
              simp only [List.length_cons]
              omega
            · simp only [pure, Except.pure, Except.ok.injEq, Prod.mk.injEq] at h
              simp only [← h.2, List.length_cons]
              omega
      · simp at h

theorem length_of_skipEscape {s rest : List Char} (h : skipEscape s = .ok rest) :
    rest.length < s.length := by
  unfold skipEscape at h
  split at h
  · simp at h
  · rename_i first tail
    split at h
    · simp only [Except.ok.injEq] at h
      simp [← h]
    · split at h
      · cases code : readHex4 tail with
        | error flaw => simp [code, bind, Except.bind] at h
        | ok p =>
          have := length_of_readHex4 code
          simp only [code, bind, Except.bind, pure, Except.pure, Except.ok.injEq] at h
          simp only [← h, List.length_cons]
          omega
      · simp at h

/-- The characters of a string up to its closing quote, added in reverse to those before. -/
def readStringFrom (before : List Char) (s : List Char) : Except Flaw (List Char × List Char) :=
  match s with
  | [] => .error .truncated
  | c :: rest =>
    if c = '"' then .ok (before.reverse, rest)
    else if c = '\\' then
      match _h : readEscape rest with
      | .ok (value, rest) => readStringFrom (value :: before) rest
      | .error flaw => .error flaw
    else if isControl c then .error .malformed
    else readStringFrom (c :: before) rest
termination_by s.length
decreasing_by
  · have := length_of_readEscape _h
    simp_all
    omega
  · simp

/-- The characters of a string, behind its opening quote. -/
def readString (s : List Char) : Except Flaw (List Char × List Char) :=
  readStringFrom [] s

/-- Passes over a string, behind its opening quote. -/
def skipString (s : List Char) : Except Flaw (List Char) :=
  match s with
  | [] => .error .truncated
  | c :: rest =>
    if c = '"' then .ok rest
    else if c = '\\' then
      match _h : skipEscape rest with
      | .ok rest => skipString rest
      | .error flaw => .error flaw
    else if isControl c then .error .malformed
    else skipString rest
termination_by s.length
decreasing_by
  · have := length_of_skipEscape _h
    simp_all
    omega
  · simp

end Famicom.Json
