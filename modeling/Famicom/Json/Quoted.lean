import Famicom.Text.Hex

/-!
# Quoted strings

A string stands between quotes. Quotes, backslashes and control characters are escaped, all other
characters stand for themselves.

## Main definitions

* `Json.escape` — what stands for a character
* `Json.quote` — a quoted string
-/

namespace Famicom.Json

/-- What stands for a character between quotes. -/
def escape (c : Char) : List Char :=
  match c with
  | '"' => ['\\', '"']
  | '\\' => ['\\', '\\']
  | '\x08' => ['\\', 'b']
  | '\x0c' => ['\\', 'f']
  | '\n' => ['\\', 'n']
  | '\r' => ['\\', 'r']
  | '\t' => ['\\', 't']
  | c => if c.toNat < 32 then '\\' :: 'u' :: (Hex.lower 4 c.toNat).toList else [c]

/-- A string between quotes. -/
def quote (text : List Char) : List Char :=
  '"' :: (text.flatMap escape ++ ['"'])

end Famicom.Json
