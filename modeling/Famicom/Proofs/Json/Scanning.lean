import Famicom.Proofs.Json.Grammar

/-!
# Scanners read the grammar

Every scanner takes from a text the piece of the grammar that stands in front, as long as what
follows cannot be taken for a part of it.

## Main results

* `skipBlanks_append` — blanks
* `scanNumber_append` — numbers, with what they are taken apart into
* `skipString_append` — strings that are passed over
* `readString_append` — strings that are read, which have to spell a text
-/

namespace Famicom.Json

variable {s : List Char}

/-! ### Blanks -/

@[simp] theorem skipBlanks_append (b : Blanks) (s : List Char) :
    skipBlanks (b.text ++ s) = skipBlanks s :=
  List.dropWhile_append_of_pos b.areBlank

theorem skipBlanks_cons {c : Char} (mark : isBlank c = false) : skipBlanks (c :: s) = c :: s := by
  rw [skipBlanks, List.dropWhile_cons_of_neg (Bool.eq_false_iff.mp mark)]

theorem endsValue_cons {c : Char} (delimiter : isDelimiter c = true) : EndsValue (c :: s) := by
  intro c' here
  obtain rfl : c = c' := by simpa using here
  exact delimiter

theorem endsValue_blanks_append (b : Blanks) (ends : EndsValue s) : EndsValue (b.text ++ s) := by
  cases blanks : b.text with
  | nil => exact ends
  | cons c text =>
    have blank : isBlank c = true := b.areBlank c (blanks ▸ List.mem_cons_self)
    exact endsValue_cons (by simp [isDelimiter, blank])

/-! ### Numbers -/

theorem Digits.isDigit_first (d : Digits) : isDigit d.first = true :=
  d.areDigits d.first List.mem_cons_self

theorem Digits.first_ne (d : Digits) {mark : Char} (other : isDigit mark = false) :
    d.first ≠ mark := by
  rintro rfl
  rw [d.isDigit_first] at other
  cases other

/-- Digits before a text that does not begin with one are all that is taken of them. -/
theorem scanDigits_append (atEnd : Flaw) (d : Digits) (after : ∀ c ∈ s.head?, isDigit c = false) :
    scanDigits atEnd (d.text ++ s) = .ok (d.text, s) := by
  -- Nothing of what follows is taken.
  have stop : s.takeWhile isDigit = [] ∧ s.dropWhile isDigit = s := by
    cases s with
    | nil => exact ⟨rfl, rfl⟩
    | cons c s =>
      have other : ¬ isDigit c = true := Bool.eq_false_iff.mp (after c rfl)
      exact ⟨List.takeWhile_cons_of_neg other, List.dropWhile_cons_of_neg other⟩
  have rest : ∀ c ∈ d.rest, isDigit c = true := fun c member =>
    d.areDigits c (List.mem_cons_of_mem _ member)
  rw [Digits.text, List.cons_append, scanDigits, if_pos d.isDigit_first, List.takeWhile_append_of_pos rest,
    List.dropWhile_append_of_pos rest, stop.1, stop.2, List.append_nil]

theorem scanWhole_append (atEnd : Flaw) (n : NumberSpelling)
    (after : ∀ c ∈ s.head?, isDigit c = false) :
    scanWhole atEnd (n.whole.text ++ s) = .ok (n.whole.text, s) := by
  by_cases zero : n.whole.first = '0'
  · rw [Digits.text, zero, n.isShort zero]
    cases s with
    | nil => rfl
    | cons c s => simp [scanWhole, after c rfl]
  · have digits := scanDigits_append atEnd n.whole after
    rw [Digits.text, List.cons_append] at digits ⊢
    unfold scanWhole
    split
    · rename_i rest begins
      exact absurd (List.cons.inj begins).1 zero
    · exact digits

theorem not_isDigit_letter (e : ExponentSpelling) : isDigit e.letter = false := by
  unfold ExponentSpelling.letter
  split <;> rfl

theorem scanSign_append (e : ExponentSpelling) (s : List Char) :
    scanSign (e.signText ++ (e.digits.text ++ s)) =
      (decide (e.sign = some true), e.digits.text ++ s) := by
  unfold ExponentSpelling.signText
  rcases e.sign with _ | _ | _
  · -- A digit is no sign.
    have minus : e.digits.first ≠ '-' := e.digits.first_ne rfl
    have plus : e.digits.first ≠ '+' := e.digits.first_ne rfl
    simp [scanSign, Digits.text, minus, plus]
  · rfl
  · rfl

/-- What an exponent is taken apart into. -/
def ExponentSpelling.taken (e : ExponentSpelling) : Bool × List Char :=
  (e.sign = some true, e.digits.text)

/-- What a number is taken apart into. -/
def NumberSpelling.taken (n : NumberSpelling) : NumberText where
  negative := n.isNegative
  whole := n.whole.text
  fraction := n.fraction.map Digits.text
  exponent := n.exponent.map ExponentSpelling.taken

/-- What may follow a value is no part of a number. -/
theorem EndsValue.not_number (ends : EndsValue s) {c : Char} (first : c ∈ s.head?) :
    isDigit c = false ∧ c ≠ '.' ∧ c ≠ 'e' ∧ c ≠ 'E' := by
  have delimiter := ends c first
  simp only [isDelimiter, isBlank, Bool.or_eq_true, decide_eq_true_eq] at delimiter
  rcases delimiter with (((((rfl | rfl) | rfl) | rfl) | rfl) | rfl) | rfl <;> decide

theorem scanExponent_append (atEnd : Flaw) (n : NumberSpelling) (ends : EndsValue s) :
    scanExponent atEnd (n.exponentText ++ s) = .ok (n.exponent.map ExponentSpelling.taken, s) := by
  unfold NumberSpelling.exponentText
  cases n.exponent with
  | none =>
    cases s with
    | nil => rfl
    | cons c s =>
      obtain ⟨-, -, small, capital⟩ := ends.not_number (List.head?_cons ..)
      simp [scanExponent, small, capital]
  | some e =>
    have letter : (e.letter = 'e' || e.letter = 'E') = true := by
      unfold ExponentSpelling.letter
      split <;> rfl
    have digits := scanDigits_append atEnd e.digits fun c first => (ends.not_number first).1
    rw [Option.elim_some, ExponentSpelling.text, List.cons_append, List.append_assoc,
      scanExponent, if_pos letter]
    simp only [scanSign_append, digits]
    rfl

theorem not_number_exponentText (n : NumberSpelling) (ends : EndsValue s) :
    ∀ c ∈ (n.exponentText ++ s).head?, isDigit c = false ∧ c ≠ '.' := by
  intro c first
  unfold NumberSpelling.exponentText at first
  cases exponent : n.exponent with
  | none =>
    rw [exponent] at first
    exact ⟨(ends.not_number first).1, (ends.not_number first).2.1⟩
  | some e =>
    rw [exponent] at first
    obtain rfl : e.letter = c := by simpa [ExponentSpelling.text] using first
    refine ⟨not_isDigit_letter e, ?_⟩
    unfold ExponentSpelling.letter
    split <;> decide

theorem scanFraction_append (atEnd : Flaw) (n : NumberSpelling) (ends : EndsValue s) :
    scanFraction atEnd (n.fractionText ++ (n.exponentText ++ s)) =
      .ok (n.fraction.map Digits.text, n.exponentText ++ s) := by
  have after := not_number_exponentText n ends
  generalize n.exponentText ++ s = behind at after
  unfold NumberSpelling.fractionText
  cases n.fraction with
  | none =>
    unfold scanFraction
    split
    · rename_i rest begins
      exact absurd rfl (after '.' (by rw [show behind = '.' :: rest from begins]; rfl)).2
    · rfl
  | some digits =>
    have scanned := scanDigits_append atEnd digits fun c first => (after c first).1
    simp only [Option.elim_some, List.cons_append, scanFraction, scanned]
    rfl

theorem not_isDigit_fractionText (n : NumberSpelling) (ends : EndsValue s) :
    ∀ c ∈ (n.fractionText ++ (n.exponentText ++ s)).head?, isDigit c = false := by
  intro c first
  unfold NumberSpelling.fractionText at first
  cases fraction : n.fraction with
  | none =>
    rw [fraction] at first
    exact (not_number_exponentText n ends c first).1
  | some digits =>
    rw [fraction] at first
    obtain rfl : '.' = c := by simpa using first
    rfl

theorem scanUnsigned_append (atEnd : Flaw) (n : NumberSpelling) (ends : EndsValue s) :
    scanUnsigned atEnd n.isNegative (n.unsignedText ++ s) = .ok (n.taken, s) := by
  have whole := scanWhole_append atEnd n (not_isDigit_fractionText n ends)
  have fraction := scanFraction_append atEnd n ends
  have exponent := scanExponent_append atEnd n ends
  rw [NumberSpelling.unsignedText, List.append_assoc, List.append_assoc]
  unfold scanUnsigned
  simp only [whole, fraction, exponent, bind, Except.bind]
  rfl

/-- A number is taken apart, whatever becomes of numbers that end too early. -/
theorem scanNumber_append (atEnd : Flaw) (n : NumberSpelling) (ends : EndsValue s) :
    scanNumber atEnd (n.text ++ s) = .ok (n.taken, s) := by
  have unsigned := scanUnsigned_append atEnd n ends
  unfold NumberSpelling.text
  cases negative : n.isNegative with
  | true =>
    rw [negative] at unsigned
    exact unsigned
  | false =>
    rw [negative] at unsigned
    unfold scanNumber
    split
    · rename_i rest begins
      exact absurd (List.cons.inj begins).1 (n.whole.first_ne rfl)
    · exact unsigned

/-! ### Strings -/

theorem readHex4_append (u : CodeUnit) (s : List Char) :
    readHex4 (u.text ++ s) = .ok (u.value, s) := by
  simp [CodeUnit.text, CodeUnit.value, readHex4, HexDigit.isDigit]

/-- No letter that stands for a character is the one that numbers have. -/
theorem ne_u_of_simpleEscape? {letter value : Char} (known : simpleEscape? letter = some value) :
    letter ≠ 'u' := by
  rintro rfl
  cases known

theorem skipEscape_letter {letter value : Char} (isEscape : simpleEscape? letter = some value)
    (s : List Char) : skipEscape (letter :: s) = .ok s := by
  simp only [skipEscape, isEscape]

theorem skipEscape_unit (u : CodeUnit) (s : List Char) :
    skipEscape ('u' :: (u.text ++ s)) = .ok s := by
  simp only [skipEscape, simpleEscape?, readHex4_append, if_true]
  rfl

theorem skipString_quote (s : List Char) : skipString ('"' :: s) = .ok s := by
  rw [skipString, if_pos rfl]

theorem skipString_plain {c : Char} (isPlain : c ≠ '"' ∧ c ≠ '\\' ∧ isControl c = false)
    (s : List Char) : skipString (c :: s) = skipString s := by
  obtain ⟨quote, backslash, control⟩ := isPlain
  rw [skipString, if_neg quote, if_neg backslash, control, if_neg Bool.false_ne_true]

theorem skipString_escape {escape : List Char} (skipped : skipEscape escape = .ok s) :
    skipString ('\\' :: escape) = skipString s := by
  rw [skipString, if_neg (by decide), if_pos rfl]
  split
  · rename_i rest found
    rw [skipped] at found
    rw [Except.ok.inj found]
  · rename_i flaw found
    rw [skipped] at found
    cases found

/-- A string is passed over, whatever its pieces spell. -/
theorem skipString_append (pieces : List StringPiece) (s : List Char) :
    skipString (stringEnd pieces ++ s) = .ok s := by
  unfold stringEnd
  induction pieces with
  | nil => exact skipString_quote s
  | cons piece pieces ih =>
    rw [List.flatMap_cons, List.append_assoc, List.append_assoc]
    rw [List.append_assoc] at ih
    cases piece with
    | plain c isPlain => exact (skipString_plain isPlain _).trans ih
    | escaped letter value isEscape =>
      exact (skipString_escape (skipEscape_letter isEscape _)).trans ih
    | unit u => exact (skipString_escape (skipEscape_unit u _)).trans ih

theorem readStringFrom_quote (before s : List Char) :
    readStringFrom before ('"' :: s) = .ok (before.reverse, s) := by
  rw [readStringFrom, if_pos rfl]

theorem readStringFrom_plain {c : Char} (isPlain : c ≠ '"' ∧ c ≠ '\\' ∧ isControl c = false)
    (before s : List Char) : readStringFrom before (c :: s) = readStringFrom (c :: before) s := by
  obtain ⟨quote, backslash, control⟩ := isPlain
  rw [readStringFrom, if_neg quote, if_neg backslash, control, if_neg Bool.false_ne_true]

theorem readStringFrom_escape {escape : List Char} {c : Char}
    (read : readEscape escape = .ok (c, s)) (before : List Char) :
    readStringFrom before ('\\' :: escape) = readStringFrom (c :: before) s := by
  rw [readStringFrom, if_neg (by decide), if_pos rfl]
  split
  · rename_i value rest found
    rw [read] at found
    obtain ⟨rfl, rfl⟩ := Prod.mk.inj (Except.ok.inj found)
    rfl
  · rename_i flaw found
    rw [read] at found
    cases found

theorem readStringFrom_escape_error {escape : List Char} {flaw : Flaw}
    (read : readEscape escape = .error flaw) (before : List Char) :
    readStringFrom before ('\\' :: escape) = .error flaw := by
  rw [readStringFrom, if_neg (by decide), if_pos rfl]
  split
  · rename_i value rest found
    rw [read] at found
    cases found
  · rename_i flaw' found
    rw [read] at found
    rw [Except.error.inj found]

theorem readEscape_letter {letter value : Char} (isEscape : simpleEscape? letter = some value)
    (s : List Char) : readEscape (letter :: s) = .ok (value, s) := by
  simp only [readEscape, isEscape]

theorem readEscape_unit (u : CodeUnit) (s : List Char) :
    readEscape ('u' :: (u.text ++ s)) =
      if isLowSurrogate u.value then .error .malformed
      else if isHighSurrogate u.value then readLowSurrogate u.value s
      else .ok (Char.ofNat u.value, s) := by
  have read : readEscape ('u' :: (u.text ++ s)) = readUnicodeEscape (u.text ++ s) := rfl
  rw [read, readUnicodeEscape, readHex4_append]
  rfl

theorem readLowSurrogate_unit (high low : CodeUnit) (s : List Char) :
    readLowSurrogate high.value (StringPiece.text (.unit low) ++ s) =
      if isLowSurrogate low.value then .ok (high.join low, s) else .error .malformed := by
  simp only [StringPiece.text, List.cons_append, readLowSurrogate, readHex4_append]
  rfl

/-- A first half that no second half follows is no character. -/
theorem readLowSurrogate_stringEnd (n : Nat) {pieces : List StringPiece} (s : List Char)
    (alone : ∀ low rest, pieces ≠ .unit low :: rest) :
    readLowSurrogate n (stringEnd pieces ++ s) = .error .malformed := by
  cases pieces with
  | nil => rfl
  | cons piece pieces =>
    rw [stringEnd, List.flatMap_cons, List.append_assoc, List.append_assoc]
    cases piece with
    | plain c isPlain =>
      rw [StringPiece.text, List.singleton_append]
      unfold readLowSurrogate
      split
      · rename_i ends
        cases ends
      · rename_i begins
        exact absurd (List.cons.inj begins).1 isPlain.2.1
      · rename_i begins
        exact absurd (List.cons.inj begins).1 isPlain.2.1
      · rfl
    | escaped letter value isEscape =>
      have other := ne_u_of_simpleEscape? isEscape
      simp [StringPiece.text, readLowSurrogate, other]
    | unit low => exact absurd rfl (alone low pieces)

/-- What is read of a string: its characters behind those before, if there are any. -/
def readingOf (before s : List Char) : Option (List Char) → Except Flaw (List Char × List Char)
  | some chars => .ok (before.reverse ++ chars, s)
  | none => .error .malformed

theorem readingOf_map_cons (before s : List Char) (c : Char) (chars : Option (List Char)) :
    readingOf before s (chars.map (c :: ·)) = readingOf (c :: before) s chars := by
  cases chars <;> simp [readingOf]

theorem stringEnd_cons (piece : StringPiece) (pieces : List StringPiece) :
    stringEnd (piece :: pieces) = piece.text ++ stringEnd pieces := by
  rw [stringEnd, stringEnd, List.flatMap_cons, List.append_assoc]

theorem readStringFrom_append (before : List Char) (pieces : List StringPiece) (s : List Char) :
    readStringFrom before (stringEnd pieces ++ s) =
      readingOf before s (StringPiece.decode? pieces) := by
  fun_induction StringPiece.decode? pieces generalizing before with
  | case1 =>
    rw [readingOf, List.append_nil]
    exact readStringFrom_quote before s
  | case2 c isPlain pieces ih =>
    rw [stringEnd_cons, readingOf_map_cons]
    exact (readStringFrom_plain isPlain before _).trans (ih _)
  | case3 letter value isEscape pieces ih =>
    rw [stringEnd_cons, readingOf_map_cons]
    exact (readStringFrom_escape (readEscape_letter isEscape _) before).trans (ih _)
  | case4 u pieces low =>
    -- A second half comes first.
    rw [stringEnd_cons]
    exact readStringFrom_escape_error ((readEscape_unit u _).trans (if_pos low)) before
  | case5 u notLow high second pieces low ih =>
    -- Two halves make a character.
    have joined : readEscape ('u' :: (u.text ++ (stringEnd (.unit second :: pieces) ++ s))) =
        .ok (u.join second, stringEnd pieces ++ s) := by
      rw [readEscape_unit, if_neg notLow, if_pos high, stringEnd_cons, List.append_assoc,
        readLowSurrogate_unit, if_pos low]
    rw [stringEnd_cons, List.append_assoc, readingOf_map_cons]
    exact (readStringFrom_escape joined before).trans (ih _)
  | case6 u notLow high second pieces low =>
    -- Behind a first half, a unit that is no second half is no better than any other piece.
    have alone : readEscape ('u' :: (u.text ++ (stringEnd (.unit second :: pieces) ++ s))) =
        .error .malformed := by
      rw [readEscape_unit, if_neg notLow, if_pos high, stringEnd_cons, List.append_assoc,
        readLowSurrogate_unit, if_neg low]
    rw [stringEnd_cons, List.append_assoc]
    exact readStringFrom_escape_error alone before
  | case7 u pieces notLow high other =>
    have alone : readEscape ('u' :: (u.text ++ (stringEnd pieces ++ s))) = .error .malformed := by
      rw [readEscape_unit, if_neg notLow, if_pos high]
      exact readLowSurrogate_stringEnd u.value s other
    rw [stringEnd_cons, List.append_assoc]
    exact readStringFrom_escape_error alone before
  | case8 u pieces notLow notHigh ih =>
    have whole : readEscape ('u' :: (u.text ++ (stringEnd pieces ++ s))) =
        .ok (Char.ofNat u.value, stringEnd pieces ++ s) := by
      rw [readEscape_unit, if_neg notLow, if_neg notHigh]
    rw [stringEnd_cons, List.append_assoc, readingOf_map_cons]
    exact (readStringFrom_escape whole before).trans (ih _)

/-- A string that spells a text is read as that text, and no other string is read. -/
theorem readString_append (pieces : List StringPiece) (s : List Char) :
    readString (stringEnd pieces ++ s) = readingOf [] s (StringPiece.decode? pieces) :=
  readStringFrom_append [] pieces s

end Famicom.Json
