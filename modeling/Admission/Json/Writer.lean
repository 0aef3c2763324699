import Admission.Json.Basic
import Admission.Decimal.Shortest

/-!
# Writing JSON text

The compact form: no blanks, the pairs of an object in their order.  In strings the quote, the
backslash and the control characters are escaped, all else stands for itself.
-/

namespace Admission.Json

/-- Doubles are written positionally from `1e-5` to below `1e16`, and a whole one keeps its `.0`. -/
def doubles : Decimal.Layout := ⟨-5, 16⟩

/-- A hexadecimal digit, lower case. -/
def hexDigit (n : Nat) : Char := if n < 10 then Char.ofNat (48 + n) else Char.ofNat (87 + n)

/-- The characters that stand for one character inside quotes. -/
def escape (c : Char) : List Char :=
  if c = '"' then ['\\', '"']
  else if c = '\\' then ['\\', '\\']
  else if c = '\x08' then ['\\', 'b']
  else if c = '\x0c' then ['\\', 'f']
  else if c = '\n' then ['\\', 'n']
  else if c = '\r' then ['\\', 'r']
  else if c = '\t' then ['\\', 't']
  else if c.toNat < 0x20 then
    ['\\', 'u', '0', '0', hexDigit (c.toNat / 16), hexDigit (c.toNat % 16)]
  else [c]

/-- A text in quotes. -/
def quote (text : String) : String :=
  "\"" ++ String.ofList (text.toList.flatMap escape) ++ "\""

mutual

/-- The compact text of a value. -/
def write : Json → String
  | .null => "null"
  | .bool true => "true"
  | .bool false => "false"
  | .int n => toString n
  | .double bits => (Decimal.render? doubles bits).getD "null"
  | .str text => quote text
  | .arr items => "[" ++ writeItems items ++ "]"
  | .obj fields => "\x7b" ++ writeFields fields ++ "\x7d"

/-- Values with commas between them. -/
def writeItems : List Json → String
  | [] => ""
  | [item] => write item
  | item :: next :: rest => write item ++ "," ++ writeItems (next :: rest)

/-- Pairs with commas between them. -/
def writeFields : List (String × Json) → String
  | [] => ""
  | [(key, value)] => quote key ++ ":" ++ write value
  | (key, value) :: next :: rest =>
    quote key ++ ":" ++ write value ++ "," ++ writeFields (next :: rest)

end

end Admission.Json
