import Famicom.Json.Skip

/-!
# Reading records

A record is read onto a value that has all its members already: every member that the text brings
replaces one. The text may be a record, in which members come in any order, no known one comes twice
and unknown ones are passed over, or a list, which brings the values of the members in their order
and may end early.

## Main definitions

* `Json.MemberReader` — a member of a record and how its value is read
* `Json.readBool`, `Json.readNatural`, `Json.readString?` — values without parts
* `Json.readRecord` — a record or list
* `Json.readDocument` — a text that is a record or list and nothing else
-/

namespace Famicom.Json

/-- A member of the record for a `σ`: its name, and the change that its value makes. -/
structure MemberReader (σ : Type) where
  name : String
  read : List Char → Except Flaw ((σ → σ) × List Char)

/-- The flaw of a value, or `.mismatched` if it has none. -/
def flawOf {α : Type} : Except Flaw α → Flaw
  | .ok _ => .mismatched
  | .error flaw => flaw

/-- The flaw of a text, without blanks in front, that does not begin with the value that is
expected. -/
def mismatch (s : List Char) : Flaw :=
  match s with
  | [] => .truncated
  | 'n' :: rest => flawOf (expectWord ['u', 'l', 'l'] rest)
  | 't' :: rest => flawOf (expectWord ['r', 'u', 'e'] rest)
  | 'f' :: rest => flawOf (expectWord ['a', 'l', 's', 'e'] rest)
  | '"' :: rest => flawOf (readString rest)
  | c :: rest =>
    if c = '-' || isDigit c then
      match scanNumber .truncated (c :: rest) with
      | .ok (n, _) => if n.isTooLarge then .malformed else .mismatched
      | .error flaw => flaw
    else if (Frame.ofOpener? c).isSome then .mismatched
    else .malformed

/-! ### Values without parts -/

/-- A truth value. -/
def readBool (s : List Char) : Except Flaw (Bool × List Char) :=
  match skipBlanks s with
  | 't' :: rest => do pure (true, ← expectWord ['r', 'u', 'e'] rest)
  | 'f' :: rest => do pure (false, ← expectWord ['a', 'l', 's', 'e'] rest)
  | s => .error (mismatch s)

/-- A natural number below a limit. -/
def readNatural (limit : Nat) (s : List Char) : Except Flaw (Nat × List Char) :=
  match skipBlanks s with
  | [] => .error .truncated
  | c :: rest =>
    if c = '-' || isDigit c then do
      let (n, after) ← scanNumber .truncated (c :: rest)
      match n.natural? with
      | some value => if value < limit then pure (value, after) else throw .mismatched
      | none => throw (if n.isTooLarge then .malformed else .mismatched)
    else
      .error (mismatch (c :: rest))

/-- A string, or nothing. -/
def readString? (s : List Char) : Except Flaw (Option String × List Char) :=
  match skipBlanks s with
  | 'n' :: rest => do pure (none, ← expectWord ['u', 'l', 'l'] rest)
  | '"' :: rest => do
    let (text, rest) ← readString rest
    pure (some (String.ofList text), rest)
  | s => .error (mismatch s)

/-- The member with a name whose value replaces a part of the record. -/
def MemberReader.replacing {σ α : Type} (name : String)
    (reader : List Char → Except Flaw (α × List Char)) (put : α → σ → σ) : MemberReader σ :=
  ⟨name, fun s => do
    let (value, rest) ← reader s
    pure (put value, rest)⟩

/-! ### Records -/

variable {σ : Type}

/-- The end of a list. -/
def endItems (value : σ) (s : List Char) : Except Flaw (σ × List Char) :=
  match skipBlanks s with
  | [] => .error .truncated
  | c :: rest => if c = ']' then .ok (value, rest) else .error .malformed

/-- Passes over the comma in front of an item that is not the first. -/
def nextItem (isFirst : Bool) (s : List Char) : Except Flaw (List Char) :=
  if isFirst then
    .ok s
  else
    match s with
    | ',' :: rest =>
      match skipBlanks rest with
      | [] => .error .truncated
      | c :: rest => if c = ']' then .error .malformed else .ok (c :: rest)
    | _ => .error .malformed

/-- The values of the members in their order, up to the end of the list. -/
def readItems (members : List (MemberReader σ)) (isFirst : Bool) (value : σ) (s : List Char) :
    Except Flaw (σ × List Char) :=
  match members with
  | [] => endItems value s
  | member :: members =>
    match skipBlanks s with
    | [] => .error .truncated
    | ']' :: rest => .ok (value, rest)
    | s => do
      let (change, s) ← member.read (← nextItem isFirst s)
      readItems members false (change value) s

/-- The name of a member. -/
def readName (s : List Char) : Except Flaw (List Char × List Char) :=
  match s with
  | [] => .error .truncated
  | '"' :: rest => readString rest
  | _ => .error .malformed

/-- The name of the next member, behind the comma in front of it, if the record does not end. -/
def nextName (isFirst : Bool) (s : List Char) : Except Flaw (Option (List Char) × List Char) :=
  match skipBlanks s with
  | [] => .error .truncated
  | '}' :: rest => .ok (none, rest)
  | c :: rest => do
    if !isFirst && c != ',' then throw .malformed
    let (name, rest) ← readName (if isFirst then c :: rest else skipBlanks rest)
    pure (some name, rest)

/-- The members of a record, at most `fuel` of them, up to its end. -/
def readMembers (members : List (MemberReader σ)) :
    Nat → List String → σ → List Char → Except Flaw (σ × List Char)
  | 0, _, _, _ => .error .malformed
  | fuel + 1, seen, value, s => do
    match ← nextName seen.isEmpty s with
    | (none, rest) => pure (value, rest)
    | (some name, rest) =>
      let name := String.ofList name
      match members.find? (·.name == name) with
      | some member =>
        -- A second value is refused before its colon is looked for.
        if seen.contains name then throw .mismatched
        let (change, rest) ← member.read (← skipColon rest)
        readMembers members fuel (name :: seen) (change value) rest
      | none =>
        let rest ← skipValue (← skipColon rest)
        readMembers members fuel (name :: seen) value rest

/-- A record or list, read onto a value. -/
def readRecord (members : List (MemberReader σ)) (value : σ) (s : List Char) :
    Except Flaw (σ × List Char) :=
  match skipBlanks s with
  | '[' :: rest => readItems members true value rest
  | '{' :: rest => readMembers members (rest.length + 1) [] value rest
  | s => .error (mismatch s)

/-- A text that is a record or list and nothing else, read onto a value. -/
def readDocument (members : List (MemberReader σ)) (value : σ) (text : String) : Except Flaw σ := do
  let (value, rest) ← readRecord members value text.toList
  if (skipBlanks rest).isEmpty then pure value else throw .malformed

end Famicom.Json
