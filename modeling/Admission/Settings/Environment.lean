import Admission.Json.Number
import Admission.Json.Overlay
import Admission.Text.Blank
import Admission.Text.Hex

/-!
# Settings in environment variables

A variable whose name starts with `WEBHOOK_ADMISSION_`, in any case, sets the setting that the rest
of its name says: in lower case, two underscores leading into a record.  Its text is read as a
value: a number, a boolean, a text in double quotes, a character in single quotes, a list in square
brackets or a record in braces.  What cannot be read as one of these is the text itself.
-/

namespace Admission.Environment

/-! ## 1. values -/

/-- The blanks around values. -/
def isSpace (c : Char) : Bool := c = ' ' || c = '\t' || c = '\n' || c = '\x0c' || c = '\r'

def dropSpaces (chars : List Char) : List Char := chars.dropWhile isSpace

/-- The characters that end a bare value. -/
def isSeparator (c : Char) : Bool := [',', '[', ']', '\x7b', '\x7d'].contains c

/-- The characters of a bare key. -/
def isKeyChar (c : Char) : Bool := c.isAlphanum || c = '_' || c = '-'

/-- Splits a text at the double quote that closes it. -/
def quotedPart? (escaped : Bool) : List Char → Option (List Char × List Char)
  | [] => none
  | c :: rest =>
    if c = '"' ∧ !escaped then some ([], rest)
    else (quotedPart? (c = '\\' && !escaped) rest).map fun (inner, rest) => (c :: inner, rest)

/-- The character a one-letter escape stands for. -/
def unescape? (c : Char) : Option Char :=
  match c with
  | '"' => some '"'
  | '\\' => some '\\'
  | 'b' => some '\x08'
  | 'f' => some '\x0c'
  | 'n' => some '\n'
  | 'r' => some '\r'
  | 't' => some '\t'
  | _ => none

/-- Where a quoted text stands with an escape. -/
inductive Escape where
  | none
  | begun
  | number (left value : Nat)

/-- Replaces the escapes of a quoted text; control characters but the tab must be escaped. -/
def unquote? (escape : Escape) : List Char → Option (List Char)
  | [] =>
    match escape with
    | .none => some []
    | _ => none
  | c :: rest =>
    match escape with
    | .none =>
      if c = '\\' then unquote? .begun rest
      else if (c.toNat < 0x20 ∧ c ≠ '\t') ∨ c = '\x7f' then none
      else (unquote? .none rest).map (c :: ·)
    | .begun =>
      if c = 'u' then unquote? (.number 4 0) rest
      else if c = 'U' then unquote? (.number 8 0) rest
      else (unescape? c).bind fun d => (unquote? .none rest).map (d :: ·)
    | .number left value =>
      (Text.hexValue? c).bind fun digit =>
        let value := 16 * value + digit
        if left > 1 then unquote? (.number (left - 1) value) rest
        else if value.isValidChar then (unquote? .none rest).map (Char.ofNat value :: ·)
        else none

/-- A text in double quotes, after the first of them. -/
def quoted? (chars : List Char) : Option (String × List Char) := do
  let (inner, rest) ← quotedPart? false chars
  return (String.ofList (← unquote? .none inner), rest)

/-- A whole number of 64 bits, with a sign or without. -/
def int? (chars : List Char) : Option Int :=
  let (negative, digits) := match chars with
    | '-' :: rest => (true, rest)
    | '+' :: rest => (false, rest)
    | rest => (false, rest)
  if digits = [] ∨ !digits.all Char.isDigit then none
  else
    let n : Int := Json.Literal.natOfDigits digits
    (some (if negative then -n else n)).filter (Width.fits 64)

/-- What a bare text is. -/
def bare (chars : List Char) : Json :=
  let double? := if chars.contains '.' then Json.Literal.ofLooseWord? chars else none
  match double?, int? chars with
  | some literal, _ => .double (literal.toDouble?.getD 0x7FF0000000000000)
  | none, some n => .int n
  | none, none => .str (String.ofList chars)

mutual

/-- Reads a value and the blanks around it; values may hold values, so the text's length is fuel
enough. -/
def value? : (fuel : Nat) → List Char → Option (Json × List Char)
  | 0, _ => none
  | fuel + 1, chars => do
    let (value, rest) ← match dropSpaces chars with
      | 't' :: 'r' :: 'u' :: 'e' :: rest => some (.bool true, rest)
      | 'f' :: 'a' :: 'l' :: 's' :: 'e' :: rest => some (.bool false, rest)
      | '"' :: rest => (quoted? rest).map fun (text, rest) => (.str text, rest)
      | '\x27' :: c :: '\x27' :: rest => some (.str (String.singleton c), rest)
      | '\x27' :: _ => none
      | '[' :: rest => (items? fuel rest).map fun (items, rest) => (.arr items, rest)
      | '\x7b' :: rest => (pairs? fuel rest).map fun (pairs, rest) => (.obj (Fields.sort pairs), rest)
      | rest =>
        let text := rest.takeWhile fun c => !isSeparator c
        some (bare (Text.trimChars text), rest.drop text.length)
    return (value, dropSpaces rest)

/-- Reads the items of a list up to its end. -/
def items? : (fuel : Nat) → List Char → Option (List Json × List Char)
  | 0, _ => none
  | _ + 1, ']' :: rest => some ([], rest)
  | fuel + 1, chars => do
    match ← value? fuel chars with
    | (item, ',' :: rest) =>
      let (items, rest) ← items? fuel rest
      return (item :: items, rest)
    | (item, ']' :: rest) => return ([item], rest)
    | _ => none

/-- Reads the pairs of a record up to its end. -/
def pairs? : (fuel : Nat) → List Char → Option (List (String × Json) × List Char)
  | 0, _ => none
  | _ + 1, '\x7d' :: rest => some ([], rest)
  | fuel + 1, chars => do
    let (key, rest) ← match dropSpaces chars with
      | '"' :: rest => quoted? rest
      | rest =>
        let word := rest.takeWhile isKeyChar
        if word = [] then none else some (String.ofList word, rest.drop word.length)
    match dropSpaces rest with
    | '=' :: rest =>
      match ← value? fuel rest with
      | (value, ',' :: rest) =>
        let (pairs, rest) ← pairs? fuel rest
        return ((key, value) :: pairs, rest)
      | (value, '\x7d' :: rest) => return ([(key, value)], rest)
      | _ => none
    | _ => none

end

/-- The value of a variable's text. -/
def valueOf (text : String) : Json :=
  let chars := text.toList
  match value? (chars.length + 2) chars with
  | some (value, []) => value
  | _ => .str text

/-! ## 2. names -/

/-- What the names of the variables start with. -/
def start : List Char := "WEBHOOK_ADMISSION_".toList

/-- Makes a point of two underscores. -/
def joinUnderscores : List Char → List Char
  | '_' :: '_' :: rest => '.' :: joinUnderscores rest
  | c :: rest => c :: joinUnderscores rest
  | [] => []

/-- The parts of a name between points; `part` is the current one, last character first. -/
def parts (part : List Char) : List Char → List String
  | [] => [String.ofList part.reverse]
  | '.' :: rest => String.ofList part.reverse :: parts [] rest
  | c :: rest => parts (c.toLower :: part) rest

/-- The setting that a variable sets, if it sets one. -/
def path? (name : String) : Option (List String) :=
  let chars := Text.trimChars name.toList
  if (chars.take start.length).map Char.toUpper = start then
    let path := parts [] (Text.trimChars (joinUnderscores (chars.drop start.length)))
    if path.contains "" then none else some path
  else none

/-- A value inside records of one key each. -/
def nest : List String → Json → Json
  | [], value => value
  | key :: rest, value => .obj [(key, nest rest value)]

/-- The settings that variables say, later ones laid over earlier ones. -/
def settings (environment : List (String × String)) : Json :=
  environment.foldl (fun layer (name, text) =>
    match path? name with
    | some path => layer.overlay (nest path (valueOf text))
    | none => layer) (.obj [])

end Admission.Environment
