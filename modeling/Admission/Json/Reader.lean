import Admission.Json.Number
import Admission.Text.Hex

/-!
# Reading JSON text

A text is first cut into tokens, one character at a time, and the tokens then drive a machine whose
stack holds the arrays and objects that are still open.  Both passes are plain folds, so reading
ends on every text.  What they give is the spelling of a value: its words and its texts are
well-formed, but nothing has been made of them yet.

Only what is wanted of a spelling is read (`Shape`).  A field of a record that nobody knows is passed
over as it is spelled, whatever its numbers, its surrogates and its depth.  All else is read:
arrays and objects may be nested 127 deep, a number must fit a double, and a surrogate must have its
partner.

`Json.readRaw?` keeps the pairs of an object as they stand in the text; `Json.read?` gives the
canonical value.
-/

namespace Admission.Json

/-! ## 1. tokens -/

/-- A piece of a text in quotes. -/
inductive Piece where
  /-- A character that stands for itself, or has a letter for its escape. -/
  | char (c : Char)
  /-- A `\u` escape: a code unit, which may be half of a surrogate pair. -/
  | unit (value : Nat)
  /-- Bytes that are no character. -/
  | broken
  deriving DecidableEq, Repr

/-- A token of JSON text. -/
inductive Token where
  | beginArray
  | endArray
  | beginObject
  | endObject
  | colon
  | comma
  | text (pieces : List Piece)
  /-- A number or one of the three literal names. -/
  | word (chars : List Char)

/-- What the scanner is in the middle of. -/
inductive Scan where
  /-- Between tokens. -/
  | blank
  /-- In a word: its characters, last first. -/
  | word (chars : List Char)
  /-- In a text: its pieces, last first. -/
  | text (pieces : List Piece)
  /-- In a text, after a backslash. -/
  | escape (pieces : List Piece)
  /-- In a text, in a `\u` escape: the digits read, and their value. -/
  | unit (pieces : List Piece) (digits : Nat) (value : Nat)

/-- The value of a word that is a name. -/
def nameValue? (word : List Char) : Option Json :=
  if word = ['n', 'u', 'l', 'l'] then some .null
  else if word = ['t', 'r', 'u', 'e'] then some (.bool true)
  else if word = ['f', 'a', 'l', 's', 'e'] then some (.bool false)
  else none

/-- Whether a word is a name or has the form of a number. -/
def isWord (word : List Char) : Bool := (nameValue? word).isSome || (Literal.ofWord? word).isSome

/-- The characters a number or a name is made of. -/
def isWordChar (c : Char) : Bool := c.isAlphanum || c = '-' || c = '+' || c = '.'

/-- What a character means between tokens: the scanner's next state, and the token it completes. -/
def Scan.start? (c : Char) : Option (Scan × List Token) :=
  if c = ' ' ∨ c = '\n' ∨ c = '\r' ∨ c = '\t' then some (.blank, [])
  else if c = '[' then some (.blank, [.beginArray])
  else if c = ']' then some (.blank, [.endArray])
  else if c = '\x7b' then some (.blank, [.beginObject])
  else if c = '\x7d' then some (.blank, [.endObject])
  else if c = ':' then some (.blank, [.colon])
  else if c = ',' then some (.blank, [.comma])
  else if c = '"' then some (.text [], [])
  else if isWordChar c then some (.word [c], [])
  else none

/-- The character a one-letter escape stands for. -/
def unescape? (c : Char) : Option Char :=
  match c with
  | '"' => some '"'
  | '\\' => some '\\'
  | '/' => some '/'
  | 'b' => some '\x08'
  | 'f' => some '\x0c'
  | 'n' => some '\n'
  | 'r' => some '\r'
  | 't' => some '\t'
  | _ => none

/-- One character of the text. -/
def Scan.step? (scan : Scan) (c : Char) : Option (Scan × List Token) :=
  match scan with
  | .blank => start? c
  | .word chars =>
    if isWordChar c then some (.word (c :: chars), [])
    else if isWord chars.reverse then
      (start? c).map fun (scan, tokens) => (scan, .word chars.reverse :: tokens)
    else none
  | .text pieces =>
    if c = '"' then some (.blank, [.text pieces.reverse])
    else if c = '\\' then some (.escape pieces, [])
    else if c.toNat < 0x20 then none
    else some (.text (.char c :: pieces), [])
  | .escape pieces =>
    if c = 'u' then some (.unit pieces 0 0, [])
    else (unescape? c).map fun d => (.text (.char d :: pieces), [])
  | .unit pieces digits value =>
    (Text.hexValue? c).map fun digit =>
      let value := 16 * value + digit
      if digits = 3 then (.text (.unit value :: pieces), [])
      else (.unit pieces (digits + 1) value, [])

/-- Bytes that are no character may stand in a text only. -/
def Scan.broken? : Scan → Option Scan
  | .text pieces => some (.text (.broken :: pieces))
  | _ => none

/-- What the end of the text completes. -/
def Scan.finish? : Scan → Option (List Token)
  | .blank => some []
  | .word chars => if isWord chars.reverse then some [.word chars.reverse] else none
  | _ => none

/-- The characters of a text, each of them one. -/
def letters (text : String) : List (Option Char) := text.toList.map some

/-- Cuts characters into tokens, gathering them last first. -/
def tokens? (scan : Scan) (gathered : List Token) : List (Option Char) → Option (List Token)
  | [] => scan.finish?.map fun last => (last.reverse ++ gathered).reverse
  | none :: rest =>
    match scan.broken? with
    | none => none
    | some scan => tokens? scan gathered rest
  | some c :: rest =>
    match scan.step? c with
    | none => none
    | some (scan, found) => tokens? scan (found.reverse ++ gathered) rest

/-! ## 2. spellings -/

/-- A value as a text spells it. -/
inductive Spelling where
  | word (chars : List Char)
  | text (pieces : List Piece)
  | arr (items : List Spelling)
  | obj (fields : List (List Piece × Spelling))

/-- An array or object that is still open: its parts so far, last first. -/
inductive Frame where
  | items (done : List Spelling)
  | fields (done : List (List Piece × Spelling)) (key : List Piece)

/-- What the machine waits for. -/
inductive Expect where
  | value
  /-- The first item of an array, or its end. -/
  | itemOrEnd
  /-- The first key of an object, or its end. -/
  | keyOrEnd
  | key
  | colon
  /-- A comma or the end of the innermost frame. -/
  | next
  /-- Nothing: the value is complete. -/
  | done (value : Spelling)

/-- The machine: open frames, innermost first, and what may come. -/
structure Machine where
  frames : List Frame
  expect : Expect

/-- A value is complete: it joins the innermost frame, or is the result. -/
def Machine.supply (frames : List Frame) (value : Spelling) : Machine :=
  match frames with
  | [] => ⟨[], .done value⟩
  | .items done :: outer => ⟨.items (value :: done) :: outer, .next⟩
  | .fields done key :: outer => ⟨.fields ((key, value) :: done) key :: outer, .next⟩

/-- The start of a value. -/
def Machine.begin? (frames : List Frame) (token : Token) : Option Machine :=
  match token with
  | .word chars => some (supply frames (.word chars))
  | .text pieces => some (supply frames (.text pieces))
  | .beginArray => some ⟨.items [] :: frames, .itemOrEnd⟩
  | .beginObject => some ⟨.fields [] [] :: frames, .keyOrEnd⟩
  | _ => none

/-- One token. -/
def Machine.step? (m : Machine) (token : Token) : Option Machine :=
  match m.expect with
  | .value => begin? m.frames token
  | .itemOrEnd =>
    match token, m.frames with
    | .endArray, .items _ :: outer => some (supply outer (.arr []))
    | token, frames => begin? frames token
  | .keyOrEnd =>
    match token, m.frames with
    | .endObject, _ :: outer => some (supply outer (.obj []))
    | .text key, .fields done _ :: outer => some ⟨.fields done key :: outer, .colon⟩
    | _, _ => none
  | .key =>
    match token, m.frames with
    | .text key, .fields done _ :: outer => some ⟨.fields done key :: outer, .colon⟩
    | _, _ => none
  | .colon =>
    match token with
    | .colon => some ⟨m.frames, .value⟩
    | _ => none
  | .next =>
    match token, m.frames with
    | .comma, .items _ :: _ => some ⟨m.frames, .value⟩
    | .comma, .fields _ _ :: _ => some ⟨m.frames, .key⟩
    | .endArray, .items done :: outer => some (supply outer (.arr done.reverse))
    | .endObject, .fields done _ :: outer => some (supply outer (.obj done.reverse))
    | _, _ => none
  | .done _ => none

/-- The one value that characters spell. -/
def Spelling.ofChars? (chars : List (Option Char)) : Option Spelling := do
  let tokens ← tokens? .blank [] chars
  match (← tokens.foldlM Machine.step? ⟨[], .value⟩).expect with
  | .done value => some value
  | _ => none

/-! ## 3. values -/

/-- The value of a word; none when it is a number that is too large. -/
def wordValue? (word : List Char) : Option Json :=
  (nameValue? word).or ((Literal.ofWord? word).bind Literal.value?)

def isHighSurrogate (value : Nat) : Bool := 0xD800 ≤ value && value < 0xDC00

def isLowSurrogate (value : Nat) : Bool := 0xDC00 ≤ value && value < 0xE000

/-- The characters that pieces spell.  A surrogate without its partner is refused. -/
def Piece.chars? : List Piece → Option (List Char)
  | [] => some []
  | .char c :: rest => (c :: ·) <$> chars? rest
  | .broken :: _ => none
  | .unit high :: rest =>
    if isHighSurrogate high then
      match rest with
      | .unit low :: rest =>
        if isLowSurrogate low then
          (Char.ofNat (0x10000 + (high - 0xD800) * 0x400 + (low - 0xDC00)) :: ·) <$> chars? rest
        else none
      | _ => none
    else if isLowSurrogate high then none
    else (Char.ofNat high :: ·) <$> chars? rest

/-- The text that pieces spell. -/
def Piece.text? (pieces : List Piece) : Option String := (chars? pieces).map String.ofList

/-- What is wanted of a value. -/
inductive Shape where
  /-- All of it, in its canonical form. -/
  | any
  /-- All of it, the pairs of an object as they stand. -/
  | plain
  /-- The fields of these names, and of each what is wanted of it.  An array has the fields in this
  order. -/
  | record (fields : List (String × Shape))

namespace Shape

/-- A record of plain fields. -/
def flat (names : List String) : Shape := .record (names.map (·, .plain))

/-- What is wanted of a field; none when nothing is. -/
def field? (name : String) : Shape → Option Shape
  | .record fields => fields.lookup name
  | shape => some shape

/-- What is wanted of the first item of an array. -/
def first : Shape → Shape
  | .record ((_, shape) :: _) => shape
  | .record [] => .plain
  | shape => shape

/-- What is wanted of the items after it. -/
def rest : Shape → Shape
  | .record fields => .record fields.tail
  | shape => shape

/-- An object of the pairs that were read. -/
def object (fields : List (String × Json)) : Shape → Json
  | .any => .obj (Fields.sort fields)
  | _ => .obj fields

end Shape

/-- How deep arrays and objects may be nested. -/
def maxDepth : Nat := 127

mutual

/-- The value of a spelling, arrays and objects nested at most so deep. -/
def Spelling.read? (shape : Shape) (depth : Nat) : Spelling → Option Json
  | .word chars => wordValue? chars
  | .text pieces => (Piece.text? pieces).map .str
  | .arr items => if depth = 0 then none else (readItems? shape (depth - 1) items).map .arr
  | .obj fields =>
    if depth = 0 then none else (readFields? shape (depth - 1) fields).map shape.object

/-- The values of the items of an array. -/
def readItems? (shape : Shape) (depth : Nat) : List Spelling → Option (List Json)
  | [] => some []
  | item :: rest =>
    (item.read? shape.first depth).bind fun value =>
      (readItems? shape.rest depth rest).map (value :: ·)

/-- The values of the pairs of an object, those that are wanted. -/
def readFields? (shape : Shape) (depth : Nat) :
    List (List Piece × Spelling) → Option (List (String × Json))
  | [] => some []
  | (pieces, field) :: rest =>
    (Piece.text? pieces).bind fun name =>
      match shape.field? name with
      | none => readFields? shape depth rest
      | some wanted =>
        (field.read? wanted depth).bind fun value =>
          (readFields? shape depth rest).map ((name, value) :: ·)

end

/-- Reads characters as one value, as far as it is wanted. -/
def readChars? (shape : Shape) (chars : List (Option Char)) : Option Json :=
  (Spelling.ofChars? chars).bind (Spelling.read? shape maxDepth)

/-- Reads a text as one value, objects as they stand. -/
def readRaw? (text : String) : Option Json := readChars? .plain (letters text)

/-- Reads a text as one canonical value. -/
def read? (text : String) : Option Json := readChars? .any (letters text)

end Admission.Json
