import Admission.Text.Hex
import Admission.Yaml.Basic

/-!
# The text of scalars

A scalar is plain, in single or double quotes, or a block.  In the first three, blanks around line
breaks are lost and the breaks are folded: one becomes a space, of several all but the first stay.
A block keeps its lines, less an indentation; a folding block joins lines that start with no blank.

Every reader here is a recursion on the characters; texts are gathered last character first.
-/

namespace Admission.Yaml

/-! ## 1. folding -/

/-- The blanks and line breaks since the last other character, last first. -/
structure Gap where
  blanks : List Char := []
  breaks : List Char := []
  /-- Whether it starts with a break that was escaped and counts for nothing. -/
  escaped : Bool := false
  deriving DecidableEq, Repr

namespace Gap

/-- Blanks count only before the first line break. -/
def addBlank (gap : Gap) (c : Char) : Gap :=
  if gap.breaks = [] ∧ !gap.escaped then { gap with blanks := c :: gap.blanks } else gap

def addBreak (gap : Gap) (c : Char) : Gap := { gap with blanks := [], breaks := c :: gap.breaks }

def isEmpty (gap : Gap) : Bool := gap.blanks.isEmpty && gap.breaks.isEmpty

/-- What stands for a gap in the scalar, last character first. -/
def folded (gap : Gap) : List Char :=
  if gap.escaped then gap.breaks
  else
    match gap.breaks.reverse with
    | [] => gap.blanks
    | ['\n'] => [' ']
    | '\n' :: more => more.reverse
    | breaks => breaks.reverse

end Gap

/-! ## 2. plain scalars -/

/-- Whether a plain scalar is over before a character that is no blank and no line break. -/
def endsPlain (inFlow : Bool) (indent : Int) (gap : Gap) (g : Glyph) (rest : List Glyph) : Bool :=
  isEnd g.char ||
    (!gap.isEmpty && (g.char = '#' || startsMarker (g :: rest) ||
      (!inFlow && decide ((g.column : Int) < indent)))) ||
    (g.char = ':' && isGap (next rest)) ||
    (inFlow && isFlowMark g.char)

/-- Reads a plain scalar; gives its text, whether a line break came after it, and what follows. -/
def plain (inFlow : Bool) (indent : Int) (text : List Char) (gap : Gap) :
    List Glyph → Except Fault (List Char × Bool × List Glyph)
  | [] => .ok (text.reverse, !gap.breaks.isEmpty, [])
  | g :: rest =>
    if isBlank g.char then
      if g.char = '\t' ∧ gap.breaks ≠ [] ∧ (g.column : Int) < indent then .error .tab
      else plain inFlow indent text (gap.addBlank g.char) rest
    else if isBreak g.char then plain inFlow indent text (gap.addBreak g.char) rest
    else if endsPlain inFlow indent gap g rest then
      .ok (text.reverse, !gap.breaks.isEmpty, g :: rest)
    else if inFlow ∧ g.char = ':' ∧ (isFlowMark (next rest) ∨ next rest = '?') then .error .token
    else plain inFlow indent (g.char :: (gap.folded ++ text)) {} rest

/-! ## 3. quoted scalars -/

/-- Reads on after a single quote up to the one that closes it. -/
def single (text : List Char) (gap : Gap) : List Glyph → Except Fault (List Char × List Glyph)
  | [] => .error .token
  | g :: rest =>
    if isBlank g.char then single text (gap.addBlank g.char) rest
    else if isBreak g.char then single text (gap.addBreak g.char) rest
    else if isEnd g.char ∨ startsMarker (g :: rest) then .error .token
    else if g.char = '\x27' then
      match rest with
      | h :: rest =>
        if h.char = '\x27' then single ('\x27' :: (gap.folded ++ text)) {} rest
        else .ok ((gap.folded ++ text).reverse, h :: rest)
      | [] => .error .token
    else single (g.char :: (gap.folded ++ text)) {} rest

/-- The character a one-letter escape stands for. -/
def unescape? (c : Char) : Option Char :=
  match c with
  | '0' => some '\x00'
  | 'a' => some '\x07'
  | 'b' => some '\x08'
  | 't' | '\t' => some '\t'
  | 'n' => some '\n'
  | 'v' => some '\x0b'
  | 'f' => some '\x0c'
  | 'r' => some '\r'
  | 'e' => some '\x1b'
  | ' ' => some ' '
  | '"' => some '"'
  | '/' => some '/'
  | '\\' => some '\\'
  | 'N' => some '\x85'
  | '_' => some '\xa0'
  | 'L' => some '\u2028'
  | 'P' => some '\u2029'
  | _ => none

/-- How many digits an escape by number has. -/
def escapeDigits? (c : Char) : Option Nat :=
  match c with
  | 'x' => some 2
  | 'u' => some 4
  | 'U' => some 8
  | _ => none

/-- Where a double quoted scalar stands with an escape. -/
inductive Escape where
  | none
  /-- After the backslash. -/
  | begun
  /-- In a number: the digits to come and the value so far. -/
  | number (left value : Nat)

/-- Reads on after a double quote up to the one that closes it. -/
def double (escape : Escape) (text : List Char) (gap : Gap) :
    List Glyph → Except Fault (List Char × List Glyph)
  | [] => .error .token
  | g :: rest =>
    match escape with
    | .number left value =>
      match Text.hexValue? g.char with
      | .none => .error .token
      | some digit =>
        let value := 16 * value + digit
        if left > 1 then double (.number (left - 1) value) text gap rest
        else if value.isValidChar then double .none (Char.ofNat value :: text) {} rest
        else .error .token
    | .begun =>
      if isBreak g.char then double .none text { escaped := true } rest
      else
        match escapeDigits? g.char, unescape? g.char with
        | some digits, _ => double (.number digits 0) text gap rest
        | .none, some c => double .none (c :: text) {} rest
        | .none, .none => .error .token
    | .none =>
      if isBlank g.char then double .none text (gap.addBlank g.char) rest
      else if isBreak g.char then double .none text (gap.addBreak g.char) rest
      else if isEnd g.char ∨ startsMarker (g :: rest) then .error .token
      else if g.char = '"' then .ok ((gap.folded ++ text).reverse, rest)
      else if g.char = '\\' then double .begun (gap.folded ++ text) {} rest
      else double .none (g.char :: (gap.folded ++ text)) {} rest

/-! ## 4. blocks -/

/-- What becomes of the line breaks at the end of a block. -/
inductive Chomping where
  /-- The last line keeps its break. -/
  | clip
  | strip
  | keep
  deriving DecidableEq, Repr

def Chomping.ofChar? (c : Char) : Option Chomping :=
  match c with
  | '-' => some .strip
  | '+' => some .keep
  | _ => none

/-- An indentation given as a digit, zero being none that may be given. -/
def indentation? (c : Char) : Except Fault (Option Nat) :=
  if c = '0' then .error .token
  else .ok (if c.isDigit then some (c.toNat - '0'.toNat) else none)

/-- The two indicators of a block, each optional, in either order. -/
def blockHeader : List Glyph → Except Fault (Chomping × Option Nat × List Glyph)
  | [] => .ok (.clip, none, [])
  | g :: rest =>
    match Chomping.ofChar? g.char with
    | some chomping => do
      match ← indentation? (next rest) with
      | some n => return (chomping, some n, rest.drop 1)
      | none => return (chomping, none, rest)
    | none => do
      match ← indentation? g.char with
      | some n =>
        match Chomping.ofChar? (next rest) with
        | some chomping => return (chomping, some n, rest.drop 1)
        | none => return (.clip, some n, rest)
      | none => return (.clip, none, g :: rest)

/-- Passes over blanks and a comment to the next line; nothing else may be left of this one. -/
def finishLine (inComment : Bool) : List Glyph → Except Fault (List Glyph)
  | [] => .ok []
  | g :: rest =>
    if isBreak g.char then .ok rest
    else if isEnd g.char then .ok (g :: rest)
    else if inComment ∨ isBlank g.char then finishLine inComment rest
    else if g.char = '#' then finishLine true rest
    else .error .token

/-- Passes over the blank lines at the start of a block; gives the widest column reached by spaces,
the breaks of those lines, and what follows. -/
def blankLines (widest : Nat) (breaks : List Char) :
    List Glyph → Except Fault (Nat × List Char × List Glyph)
  | [] => .ok (widest, breaks, [])
  | g :: rest =>
    if g.char = ' ' then blankLines widest breaks rest
    else if g.char = '\t' then .error .tab
    else if isBreak g.char then blankLines (max widest g.column) (g.char :: breaks) rest
    else .ok (max widest g.column, breaks, g :: rest)

/-- The lines of a block read so far. -/
structure Block where
  /-- The text up to the last line's break, last first. -/
  text : List Char := []
  /-- The break of the last line. -/
  lastBreak : Option Char := none
  /-- The breaks of the blank lines after it, last first. -/
  breaks : List Char := []
  /-- Whether the last line starts with a blank. -/
  blankStart : Bool := false

namespace Block

/-- Starts a new line with its first character. -/
def newLine (folding : Bool) (b : Block) (first : Char) : Block :=
  let joins := folding && b.lastBreak = some '\n' && !b.blankStart && !isBlank first
  let between := if !joins then b.breaks ++ b.lastBreak.toList
    else if b.breaks = [] then [' ']
    else b.breaks
  { text := first :: (between ++ b.text), blankStart := isBlank first }

/-- The text with what is left of the breaks at its end. -/
def chomp (b : Block) (chomping : Chomping) : List Char :=
  match chomping with
  | .strip => b.text.reverse
  | .clip => (b.lastBreak.toList ++ b.text).reverse
  | .keep => (b.breaks ++ b.lastBreak.toList ++ b.text).reverse

end Block

/-- Reads the lines of a block, which are those with an indentation. -/
def blockLines (folding : Bool) (indent : Nat) (inLine : Bool) (b : Block) :
    List Glyph → Except Fault (Block × List Glyph)
  | [] => .ok (b, [])
  | g :: rest =>
    if inLine then
      if isBreak g.char then
        blockLines folding indent false { b with lastBreak := some g.char, breaks := [] } rest
      else if isEnd g.char then .ok (b, g :: rest)
      else blockLines folding indent true { b with text := g.char :: b.text } rest
    else if g.char = ' ' ∧ g.column < indent then blockLines folding indent false b rest
    else if g.char = '\t' ∧ g.column < indent then .error .tab
    else if isBreak g.char then
      blockLines folding indent false { b with breaks := g.char :: b.breaks } rest
    else if g.column = indent ∧ !isEnd g.char then
      blockLines folding indent true (b.newLine folding g.char) rest
    else .ok (b, g :: rest)

/-- Reads a block after its mark, inside a collection of an indentation. -/
def block (folding : Bool) (parent : Int) (gs : List Glyph) :
    Except Fault (List Char × List Glyph) := do
  let (chomping, given, gs) ← blockHeader gs
  let gs ← finishLine false gs
  let (indent, breaks, gs) ← match given with
    | some n => .ok ((if 0 ≤ parent then parent.toNat + n else n), [], gs)
    | none => do
      let (widest, breaks, gs) ← blankLines 0 [] gs
      pure (max (max widest (parent + 1).toNat) 1, breaks, gs)
  let (b, gs) ← blockLines folding indent false { breaks := breaks } gs
  return (b.chomp chomping, gs)

end Admission.Yaml
