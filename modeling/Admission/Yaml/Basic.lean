/-!
# YAML text

A text is read as characters with their places.  Every line break but the two separators of
paragraphs and lines counts as a newline, a carriage return with its newline as one.  The end of the
text is marked by NUL, a character no text may hold, so that there is always a next character.
-/

namespace Admission.Yaml

/-- Why a text is not YAML, or not of the wanted form. -/
inductive Fault where
  /-- A character that no text may hold. -/
  | character
  /-- A place where no token can start, or where one breaks off. -/
  | token
  /-- A tab where spaces set the indentation. -/
  | tab
  /-- A key that its place demands, without a colon. -/
  | key
  /-- Tokens that make up no document. -/
  | arrangement
  | directive
  | tag
  /-- An alias of nothing, or of the node it stands in. -/
  | alias
  /-- Aliases that unfold to too many nodes. -/
  | expansion
  | depth
  /-- A key that a mapping has already. -/
  | duplicateKey
  /-- A scalar that is not what its tag says, or a number out of range. -/
  | scalar
  /-- Another number of documents than one. -/
  | documents
  deriving DecidableEq, Repr

/-- The wording. -/
def Fault.message : Fault → String
  | .character => "control characters are not allowed"
  | .token => "no token can start here"
  | .tab => "a tab stands where an indentation space is expected"
  | .key => "a key without a colon"
  | .arrangement => "unexpected token"
  | .directive => "malformed directive"
  | .tag => "malformed or unknown tag"
  | .alias => "unknown anchor"
  | .expansion => "repetition limit exceeded"
  | .depth => "recursion limit exceeded"
  | .duplicateKey => "duplicate entry"
  | .scalar => "invalid scalar"
  | .documents => "expected one document"

/-- A character and its place. -/
structure Glyph where
  char : Char
  line : Nat
  column : Nat
  deriving DecidableEq, Repr

/-! ## 1. classes of characters -/

/-- The characters a text may hold. -/
def isAllowed (c : Char) : Bool :=
  let n := c.toNat
  n = 0x09 || n = 0x0A || n = 0x0D || (0x20 ≤ n && n ≤ 0x7E) || n = 0x85 ||
    (0xA0 ≤ n && n ≤ 0xD7FF) || (0xE000 ≤ n && n ≤ 0xFFFD && n ≠ 0xFEFF) || 0x10000 ≤ n

def isBlank (c : Char) : Bool := c = ' ' || c = '\t'

/-- The line breaks that are left in a text. -/
def isBreak (c : Char) : Bool := c = '\n' || c = '\u2028' || c = '\u2029'

/-- The mark of the end. -/
def isEnd (c : Char) : Bool := c = '\x00'

/-- Where a word ends: at a blank, a line break or the end of the text. -/
def isGap (c : Char) : Bool := isBlank c || isBreak c || isEnd c

/-- The characters of names. -/
def isWord (c : Char) : Bool := c.isAlphanum || c = '_' || c = '-'

/-- The characters that have a meaning inside flow collections. -/
def isFlowMark (c : Char) : Bool := [',', '[', ']', '\x7b', '\x7d'].contains c

/-! ## 2. places -/

/-- Makes newlines of line breaks. -/
def newlines : List Char → List Char
  | '\r' :: '\n' :: rest => '\n' :: newlines rest
  | c :: rest => (if c = '\r' ∨ c = '\x85' then '\n' else c) :: newlines rest
  | [] => []

/-- Gives every character its place, and ends with the mark of the end. -/
def place (line column : Nat) : List Char → List Glyph
  | [] => [⟨'\x00', line, column⟩]
  | c :: rest => ⟨c, line, column⟩ ::
    if isBreak c then place (line + 1) 0 rest else place line (column + 1) rest

/-- The characters of a text with their places; a byte order mark at the start is no part of it. -/
def glyphs (text : String) : Except Fault (List Glyph) :=
  let chars := match text.toList with
    | '\uFEFF' :: rest => rest
    | chars => chars
  if chars.all isAllowed then .ok (place 0 0 (newlines chars)) else .error .character

/-- The next character. -/
def next : List Glyph → Char
  | [] => '\x00'
  | g :: _ => g.char

/-- Whether a line starts with the three characters that begin or end a document. -/
def startsMarker : List Glyph → Bool
  | a :: b :: c :: rest =>
    a.column = 0 && a.char = b.char && b.char = c.char && (a.char = '-' || a.char = '.') &&
      isGap (next rest)
  | _ => false

end Admission.Yaml
