import Famicom.Json.Quoted

/-!
# Documents

A document is a value that is to be written as JSON: nothing, a truth value, a natural number, a
string or a record. A record takes one line for each member, indented by two blanks more than the
record.

## Main definitions

* `Json.Document`, `Json.Members` — documents and the members of a record
* `Json.Document.pretty` — the text of a document
-/

namespace Famicom.Json

mutual

/-- A value that is to be written as JSON. -/
inductive Document where
  | null
  | bool (value : Bool)
  | number (value : Nat)
  | string (value : String)
  | record (members : Members)

/-- The members of a record, in their order. -/
inductive Members where
  | nil
  | cons (name : String) (value : Document) (rest : Members)

end

/-- The members with names and values. -/
def Members.ofList : List (String × Document) → Members
  | [] => .nil
  | (name, value) :: rest => .cons name value (ofList rest)

/-- A record of members. -/
def Document.ofMembers (members : List (String × Document)) : Document :=
  .record (.ofList members)

/-- A string, or nothing. -/
def Document.ofString? : Option String → Document
  | some value => .string value
  | none => .null

/-- The beginning of a line at a depth. -/
def newLine (depth : Nat) : List Char :=
  '\n' :: List.replicate (2 * depth) ' '

mutual

/-- The text of a document that begins at a depth. -/
def Document.layOut (depth : Nat) : Document → List Char
  | .null => "null".toList
  | .bool value => (if value then "true" else "false").toList
  | .number value => (toString value).toList
  | .string value => quote value.toList
  | .record .nil => ['{', '}']
  | .record (.cons name value rest) =>
    '{' :: (newLine (depth + 1) ++ quote name.toList ++ [':', ' '] ++ value.layOut (depth + 1)
      ++ rest.layOut depth)

/-- The text of further members of a record that begins at a depth, and its end. -/
def Members.layOut (depth : Nat) : Members → List Char
  | .nil => newLine depth ++ ['}']
  | .cons name value rest =>
    ',' :: (newLine (depth + 1) ++ quote name.toList ++ [':', ' '] ++ value.layOut (depth + 1)
      ++ rest.layOut depth)

end

/-- The text of a document. -/
def Document.pretty (d : Document) : String :=
  String.ofList (d.layOut 0)

end Famicom.Json
