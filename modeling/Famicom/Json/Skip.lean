import Famicom.Json.Scan

/-!
# Skipping JSON values

A value that nobody wants to know is passed over. It has to be JSON, to any depth; the size of its
numbers and the pairing of halves of characters do not matter.

## Main definitions

* `Json.Frame` — a list or a record that is still open
* `Json.skipScalar` — passes over a value without parts
* `Json.skipFrom` — passes over the rest of a value with open lists and records
* `Json.skipValue` — passes over a value

## Main results

* `Json.length_of_skipScalar`, `Json.length_of_startItem` — every step leaves less text, or as much
  and an earlier expectation, which is why a skip ends
-/

namespace Famicom.Json

/-- A list or a record that is still open. -/
inductive Frame where
  | list
  | record
  deriving DecidableEq, Repr

/-- The character that ends a list or a record. -/
def Frame.closer : Frame → Char
  | .list => ']'
  | .record => '}'

/-- The kind of value that a character opens. -/
def Frame.ofOpener? (c : Char) : Option Frame :=
  if c = '[' then some .list else if c = '{' then some .record else none

/-- What a skip expects next. -/
inductive Expected where
  /-- A value. -/
  | value
  /-- The first item of a list or record that has just been opened, or its end. -/
  | firstItem (frame : Frame)
  /-- What follows a value. -/
  | following
  deriving DecidableEq, Repr

/-- The expectations in an order in which they lead to each other without reading. -/
def Expected.rank : Expected → Nat
  | .firstItem _ => 1
  | _ => 0

/-- Passes over a value without parts. -/
def skipScalar (s : List Char) : Except Flaw (List Char) :=
  match s with
  | 'n' :: rest => expectWord ['u', 'l', 'l'] rest
  | 't' :: rest => expectWord ['r', 'u', 'e'] rest
  | 'f' :: rest => expectWord ['a', 'l', 's', 'e'] rest
  | '"' :: rest => skipString rest
  | c :: rest =>
    if c = '-' || isDigit c then
      match scanNumber .malformed (c :: rest) with
      | .ok (_, rest) => .ok rest
      | .error flaw => .error flaw
    else
      .error .malformed
  | [] => .error .truncated

/-- Passes over the colon behind a name. -/
def skipColon (s : List Char) : Except Flaw (List Char) :=
  match skipBlanks s with
  | [] => .error .truncated
  | c :: rest => if c = ':' then .ok rest else .error .malformed

/-- Passes over the name of a member and its colon. -/
def skipName (s : List Char) : Except Flaw (List Char) :=
  match skipBlanks s with
  | [] => .error .truncated
  | c :: rest =>
    if c = '"' then do skipColon (← skipString rest) else .error .malformed

/-- Passes over what stands in front of the value of an item. -/
def startItem (frame : Frame) (s : List Char) : Except Flaw (List Char) :=
  match frame with
  | .list => .ok s
  | .record => skipName s

/-! ### Lengths -/

theorem length_skipBlanks_le (s : List Char) : (skipBlanks s).length ≤ s.length := by
  exact (List.dropWhile_sublist _).length_le

theorem length_of_expectWord {word s rest : List Char} (h : expectWord word s = .ok rest) :
    rest.length ≤ s.length := by
  induction word generalizing s with
  | nil =>
    simp only [expectWord, Except.ok.injEq] at h
    simp [h]
  | cons w word ih =>
    cases s with
    | nil => simp [expectWord] at h
    | cons c s =>
      simp only [expectWord] at h
      split at h
      · have := ih h
        simp only [List.length_cons]
        omega
      · simp at h

theorem length_of_scanDigits {atEnd : Flaw} {s digits rest : List Char}
    (h : scanDigits atEnd s = .ok (digits, rest)) : rest.length < s.length := by
  unfold scanDigits at h
  split at h
  · simp at h
  · rename_i c tail
    split at h
    · simp only [Except.ok.injEq, Prod.mk.injEq] at h
      have := (List.dropWhile_sublist isDigit (l := tail)).length_le
      simp only [← h.2, List.length_cons]
      omega
    · simp at h

theorem length_of_scanWhole {atEnd : Flaw} {s digits rest : List Char}
    (h : scanWhole atEnd s = .ok (digits, rest)) : rest.length < s.length := by
  unfold scanWhole at h
  split at h
  · split at h
    · split at h
      · simp at h
      · simp only [Except.ok.injEq, Prod.mk.injEq] at h
        simp [← h.2]
    · simp only [Except.ok.injEq, Prod.mk.injEq] at h
      simp [← h.2]
  · exact length_of_scanDigits h

theorem length_of_scanFraction {atEnd : Flaw} {s rest : List Char} {fraction : Option (List Char)}
    (h : scanFraction atEnd s = .ok (fraction, rest)) : rest.length ≤ s.length := by
  unfold scanFraction at h
  split at h
  · rename_i tail
    cases digits : scanDigits atEnd tail with
    | error flaw => simp [digits, bind, Except.bind] at h
    | ok p =>
      have := length_of_scanDigits digits
      simp only [digits, bind, Except.bind, pure, Except.pure, Except.ok.injEq,
        Prod.mk.injEq] at h
      simp only [← h.2, List.length_cons]
      omega
  · simp only [Except.ok.injEq, Prod.mk.injEq] at h
    simp [← h.2]

theorem length_scanSign_le (s : List Char) : (scanSign s).2.length ≤ s.length := by
  unfold scanSign
  split <;> simp

theorem length_of_scanExponent {atEnd : Flaw} {s rest : List Char}
    {exponent : Option (Bool × List Char)} (h : scanExponent atEnd s = .ok (exponent, rest)) :
    rest.length ≤ s.length := by
  unfold scanExponent at h
  split at h
  · simp_all
  · rename_i c tail
    split at h
    · have sign := length_scanSign_le tail
      cases digits : scanDigits atEnd (scanSign tail).2 with
      | error flaw => simp [digits, bind, Except.bind] at h
      | ok p =>
        have := length_of_scanDigits digits
        simp only [digits, bind, Except.bind, pure, Except.pure, Except.ok.injEq,
          Prod.mk.injEq] at h
        simp only [← h.2, List.length_cons]
        omega
    · simp only [Except.ok.injEq, Prod.mk.injEq] at h
      simp [← h.2]

theorem length_of_scanUnsigned {atEnd : Flaw} {negative : Bool} {s rest : List Char}
    {n : NumberText} (h : scanUnsigned atEnd negative s = .ok (n, rest)) :
    rest.length < s.length := by
  unfold scanUnsigned at h
  cases whole : scanWhole atEnd s with
  | error flaw => simp [whole, bind, Except.bind] at h
  | ok w =>
    have hw := length_of_scanWhole whole
    cases fraction : scanFraction atEnd w.2 with
    | error flaw => simp [whole, fraction, bind, Except.bind] at h
    | ok f =>
      have hf := length_of_scanFraction fraction
      cases exponent : scanExponent atEnd f.2 with
      | error flaw => simp [whole, fraction, exponent, bind, Except.bind] at h
      | ok e =>
        have he := length_of_scanExponent exponent
        simp only [whole, fraction, exponent, bind, Except.bind, pure, Except.pure,
          Except.ok.injEq, Prod.mk.injEq] at h
        simp only [← h.2]
        omega

theorem length_of_scanNumber {atEnd : Flaw} {s rest : List Char} {n : NumberText}
    (h : scanNumber atEnd s = .ok (n, rest)) : rest.length < s.length := by
  unfold scanNumber at h
  split at h
  · have := length_of_scanUnsigned h
    simp only [List.length_cons]
    omega
  · exact length_of_scanUnsigned h

theorem length_of_skipString {s rest : List Char} (h : skipString s = .ok rest) :
    rest.length < s.length := by
  fun_induction skipString s with
  | case1 => simp at h
  | case2 tail =>
    simp only [Except.ok.injEq] at h
    simp [← h]
  | case3 tail after escape _ ih =>
    have := ih h
    have := length_of_skipEscape escape
    simp only [List.length_cons]
    omega
  | case4 => simp at h
  | case5 => simp at h
  | case6 c tail _ _ _ ih =>
    have := ih h
    simp only [List.length_cons]
    omega

theorem length_of_skipScalar {s rest : List Char} (h : skipScalar s = .ok rest) :
    rest.length < s.length := by
  unfold skipScalar at h
  split at h
  · have := length_of_expectWord h
    simp only [List.length_cons]
    omega
  · have := length_of_expectWord h
    simp only [List.length_cons]
    omega
  · have := length_of_expectWord h
    simp only [List.length_cons]
    omega
  · have := length_of_skipString h
    simp only [List.length_cons]
    omega
  · rename_i c tail _ _ _ _
    split at h
    · cases number : scanNumber .malformed (c :: tail) with
      | error flaw => simp [number] at h
      | ok p =>
        have := length_of_scanNumber number
        simp only [number, Except.ok.injEq] at h
        simpa only [← h] using this
    · simp at h
  · simp at h

theorem length_of_skipColon {s rest : List Char} (h : skipColon s = .ok rest) :
    rest.length < s.length := by
  have blanks := length_skipBlanks_le s
  unfold skipColon at h
  split at h
  · simp at h
  · rename_i c tail eq
    split at h
    · simp only [Except.ok.injEq] at h
      simp only [eq, List.length_cons] at blanks
      simp only [← h]
      omega
    · simp at h

theorem length_of_skipName {s rest : List Char} (h : skipName s = .ok rest) :
    rest.length < s.length := by
  have blanks := length_skipBlanks_le s
  unfold skipName at h
  split at h
  · simp at h
  · rename_i c tail eq
    split at h
    · cases name : skipString tail with
      | error flaw => simp [name, bind, Except.bind] at h
      | ok after =>
        have := length_of_skipString name
        simp only [name, bind, Except.bind] at h
        have := length_of_skipColon h
        simp only [eq, List.length_cons] at blanks
        omega
    · simp at h

theorem length_of_startItem {frame : Frame} {s rest : List Char}
    (h : startItem frame s = .ok rest) : rest.length ≤ s.length := by
  cases frame with
  | list =>
    simp only [startItem, Except.ok.injEq] at h
    simp [h]
  | record => exact Nat.le_of_lt (length_of_skipName h)

/-! ### Values -/

/-- Passes over the rest of the innermost of the open lists and records, and of those around it. -/
def skipFrom (expected : Expected) (frames : List Frame) (s : List Char) :
    Except Flaw (List Char) :=
  match expected with
  | .value =>
    match _blanks : skipBlanks s with
    | [] => .error .truncated
    | c :: rest =>
      match Frame.ofOpener? c with
      | some frame => skipFrom (.firstItem frame) frames rest
      | none =>
        match _scalar : skipScalar (c :: rest) with
        | .ok rest => skipFrom .following frames rest
        | .error flaw => .error flaw
  | .firstItem frame =>
    match _blanks : skipBlanks s with
    | [] => .error .truncated
    | c :: rest =>
      if c = frame.closer then
        skipFrom .following frames rest
      else
        match _item : startItem frame (c :: rest) with
        | .ok rest => skipFrom .value (frame :: frames) rest
        | .error flaw => .error flaw
  | .following =>
    match frames with
    | [] => .ok s
    | frame :: frames =>
      match _blanks : skipBlanks s with
      | [] => .error .truncated
      | c :: rest =>
        if c = frame.closer then
          skipFrom .following frames rest
        else if c = ',' then
          match _item : startItem frame rest with
          | .ok rest => skipFrom .value (frame :: frames) rest
          | .error flaw => .error flaw
        else
          .error .malformed
termination_by (s.length, expected.rank)
decreasing_by
  all_goals
    have blanks := length_skipBlanks_le s
    rw [_blanks, List.length_cons] at blanks
  · exact Prod.Lex.left _ _ (by omega)
  · have := length_of_skipScalar _scalar
    rw [List.length_cons] at this
    exact Prod.Lex.left _ _ (by omega)
  · exact Prod.Lex.left _ _ (by omega)
  · have := length_of_startItem _item
    rw [List.length_cons] at this
    by_cases h : rest.length < s.length
    · exact Prod.Lex.left _ _ h
    · exact Prod.Lex.right' _ (by omega) (by simp [Expected.rank])
  · exact Prod.Lex.left _ _ (by omega)
  · have := length_of_startItem _item
    exact Prod.Lex.left _ _ (by omega)

/-- Passes over a value. -/
def skipValue (s : List Char) : Except Flaw (List Char) :=
  skipFrom .value [] s

end Famicom.Json
