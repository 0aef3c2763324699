import Admission.Text.Utf8
import Admission.Yaml.Scalar

/-!
# Tokens of YAML text

Indentation opens and closes block collections, so the tokens say where these start and end as if
they had brackets.  A key without a mark of its own is known to be one only when its colon comes;
until then the scanner remembers where it began, and the colon puts the tokens of a key there.  A
key lies on one line and is at most 1024 characters long.
-/

namespace Admission.Yaml

/-- A token. -/
inductive Token where
  | version (major minor : Nat)
  /-- What a handle in front of a tag stands for. -/
  | handle (name start : String)
  | documentStart
  | documentEnd
  | blockSequence
  | blockMapping
  | blockEnd
  | flowSequence
  | flowSequenceEnd
  | flowMapping
  | flowMappingEnd
  /-- The dash of an item of a block sequence. -/
  | item
  | comma
  | key
  | value
  | alias (name : String)
  | anchor (name : String)
  | tag (handle suffix : String)
  | scalar (plain : Bool) (text : String)
  deriving DecidableEq, Repr

/-! ## 1. names, tags and directives -/

/-- Takes the characters of a name. -/
def takeWord (gs : List Glyph) : String × List Glyph :=
  (String.ofList ((gs.takeWhile fun g => isWord g.char).map (·.char)),
    gs.dropWhile fun g => isWord g.char)

def dropBlanks (gs : List Glyph) : List Glyph := gs.dropWhile fun g => isBlank g.char

/-- The name of an anchor, after its mark. -/
def anchorName (gs : List Glyph) : Except Fault (String × List Glyph) :=
  let (name, gs) := takeWord gs
  let c := next gs
  if name ≠ "" ∧ (isGap c ∨ ['?', ':', ',', ']', '\x7d', '%', '@', '\x60'].contains c) then
    .ok (name, gs)
  else .error .token

/-- The characters of a tag, besides percent escapes; some only where nothing can end it. -/
def isTagChar (delimited : Bool) (c : Char) : Bool :=
  isWord c ||
    [';', '/', '?', ':', '@', '&', '=', '+', '$', '.', '!', '~', '*', '\x27', '(', ')'].contains c ||
    (delimited && [',', '[', ']'].contains c)

/-- Takes the characters of a tag, its percent escapes being octets. -/
def tagOctets (delimited : Bool) (octets : List UInt8) :
    List Glyph → Except Fault (List UInt8 × List Glyph)
  | [] => .ok (octets.reverse, [])
  | g :: rest =>
    if g.char = '%' then
      match rest with
      | a :: b :: rest =>
        match Text.hexValue? a.char, Text.hexValue? b.char with
        | some high, some low => tagOctets delimited (UInt8.ofNat (16 * high + low) :: octets) rest
        | _, _ => .error .tag
      | _ => .error .tag
    else if isTagChar delimited g.char then
      tagOctets delimited (UInt8.ofNat g.char.toNat :: octets) rest
    else .ok (octets.reverse, g :: rest)

def tagText (delimited : Bool) (gs : List Glyph) : Except Fault (String × List Glyph) := do
  let (octets, gs) ← tagOctets delimited [] gs
  match Utf8.decode? octets with
  | some text => return (text, gs)
  | none => .error .tag

/-- The handle and the suffix of a tag, after its first exclamation mark: verbatim in angle
brackets, with a handle between two exclamation marks, or without. -/
def tagParts (gs : List Glyph) : Except Fault (String × String × List Glyph) := do
  if next gs = '<' then
    let (text, gs) ← tagText true (gs.drop 1)
    if text ≠ "" ∧ next gs = '>' then return ("", text, gs.drop 1) else .error .tag
  else
    let (word, gs) := takeWord gs
    if next gs = '!' then
      let (text, gs) ← tagText false (gs.drop 1)
      if text ≠ "" then return (s!"!{word}!", text, gs) else .error .tag
    else
      let (text, gs) ← tagText false gs
      return if word ++ text = "" then ("", "!", gs) else ("!", word ++ text, gs)

/-- A tag, after its first exclamation mark. -/
def tagToken (inFlow : Bool) (gs : List Glyph) : Except Fault (Token × List Glyph) := do
  let (handle, suffix, gs) ← tagParts gs
  if isGap (next gs) ∨ (inFlow ∧ next gs = ',') then return (.tag handle suffix, gs)
  else .error .tag

/-- A part of a version: at most nine digits. -/
def versionPart (gs : List Glyph) : Except Fault (Nat × List Glyph) :=
  let digits := gs.takeWhile fun g => g.char.isDigit
  if digits = [] ∨ 9 < digits.length then .error .directive
  else .ok (digits.foldl (fun n g => 10 * n + (g.char.toNat - '0'.toNat)) 0,
    gs.drop digits.length)

/-- A directive, after its mark, up to the end of its line. -/
def directive (gs : List Glyph) : Except Fault (Token × List Glyph) := do
  let (name, gs) := takeWord gs
  if !isGap (next gs) then .error .directive
  else if name = "YAML" then
    let (major, gs) ← versionPart (dropBlanks gs)
    if next gs ≠ '.' then .error .directive
    else
      let (minor, gs) ← versionPart (gs.drop 1)
      return (.version major minor, ← finishLine false gs)
  else if name = "TAG" then
    let gs := dropBlanks gs
    if next gs ≠ '!' then .error .directive
    else
      let (word, gs) := takeWord (gs.drop 1)
      let (handle, gs) := if next gs = '!' then (s!"!{word}!", gs.drop 1) else (s!"!{word}", gs)
      if (handle ≠ "!" ∧ !handle.endsWith "!") ∨ !isBlank (next gs) then .error .directive
      else
        let (start, gs) ← tagText true (dropBlanks gs)
        if start = "" ∨ !isGap (next gs) then .error .directive
        else return (.handle handle start, ← finishLine false gs)
  else .error .directive

/-! ## 2. the scanner -/

/-- Where a key may have begun. -/
structure KeyStart where
  /-- The number of tokens before it. -/
  number : Nat
  line : Nat
  column : Nat
  /-- Whether its place allows nothing but a key. -/
  required : Bool
  deriving DecidableEq, Repr

/-- What the scanner knows. -/
structure Scanner where
  /-- The tokens so far, last first. -/
  tokens : List Token := []
  count : Nat := 0
  /-- For every open flow collection, and the block around them, where a key may have begun;
  innermost first. -/
  keys : List (Option KeyStart) := [none]
  /-- How many flow collections are open. -/
  flow : Nat := 0
  /-- The indentation of the innermost block collection. -/
  indent : Int := -1
  /-- The indentations around it. -/
  indents : List Int := []
  /-- Whether a key may begin here. -/
  keyAllowed : Bool := true

namespace Scanner

def inFlow (s : Scanner) : Bool := 0 < s.flow

def push (s : Scanner) (token : Token) : Scanner :=
  { s with tokens := token :: s.tokens, count := s.count + 1 }

/-- Puts a token behind the first `number` ones. -/
def insert (s : Scanner) (number : Nat) (token : Token) : Scanner :=
  { s with tokens := s.tokens.insertIdx (s.count - number) token, count := s.count + 1 }

/-- Gives up the key that may have begun in the innermost collection. -/
def dropKey (s : Scanner) : Except Fault Scanner :=
  match s.keys with
  | some start :: outer =>
    if start.required then .error .key else .ok { s with keys := none :: outer }
  | _ => .ok s

/-- Remembers that a key may begin at a place. -/
def saveKey (s : Scanner) (g : Glyph) : Except Fault Scanner :=
  if s.keyAllowed then do
    let s ← s.dropKey
    let start : KeyStart := ⟨s.count, g.line, g.column, !s.inFlow && s.indent = g.column⟩
    return { s with keys := some start :: s.keys.drop 1 }
  else .ok s

/-- Gives up the keys that would be too long by now. -/
def expireKeys (s : Scanner) (g : Glyph) : Except Fault Scanner := do
  let keys ← s.keys.mapM fun start? =>
    match start? with
    | some start =>
      if start.line < g.line ∨ start.column + 1024 < g.column then
        if start.required then .error .key else .ok none
      else .ok (some start)
    | none => .ok none
  return { s with keys := keys }

/-- Opens a block collection at a column that is farther in than the innermost one; its token goes
behind the first `number` ones, or to the end. -/
def openBlock (s : Scanner) (column : Nat) (number : Nat) (token : Token) : Scanner :=
  if !s.inFlow ∧ s.indent < column then
    { s with indents := s.indent :: s.indents, indent := column }.insert number token
  else s

/-- Closes the block collections farther in than a column. -/
def closeBlocksFrom (column indent : Int) (indents : List Int) (s : Scanner) : Scanner :=
  if indent > column then
    let s := s.push .blockEnd
    match indents with
    | outer :: indents => closeBlocksFrom column outer indents s
    | [] => { s with indent := indent, indents := [] }
  else { s with indent := indent, indents := indents }

/-- Closes the block collections farther in than a column, unless a flow collection is open. -/
def closeBlocks (s : Scanner) (column : Int) : Scanner :=
  if s.inFlow then s else closeBlocksFrom column s.indent s.indents s

/-- A token that ends all block collections and can be part of no key. -/
def pushOutermost (s : Scanner) (token : Token) : Except Fault Scanner := do
  let s ← (s.closeBlocks (-1)).dropKey
  return { s with keyAllowed := false }.push token

/-- The start of a flow collection. -/
def openFlow (s : Scanner) (g : Glyph) (token : Token) : Except Fault Scanner := do
  let s ← s.saveKey g
  return { s with keys := none :: s.keys, flow := s.flow + 1, keyAllowed := true }.push token

/-- The end of a flow collection. -/
def closeFlow (s : Scanner) (token : Token) : Except Fault Scanner := do
  let s ← s.dropKey
  let s := if s.inFlow then { s with keys := s.keys.drop 1, flow := s.flow - 1 } else s
  return { s with keyAllowed := false }.push token

/-- The mark of an item or of a key: in a block, where a line or another mark ended before it. -/
def openEntry (s : Scanner) (g : Glyph) (collection token : Token) : Except Fault Scanner := do
  if !s.inFlow ∧ !s.keyAllowed then .error .token
  else
    let s ← (s.openBlock g.column s.count collection).dropKey
    return { s with keyAllowed := !s.inFlow || token = Token.item }.push token

/-- The colon of a value: if a key may have begun, one has. -/
def value (s : Scanner) (g : Glyph) : Except Fault Scanner :=
  match s.keys with
  | some start :: outer =>
    let s := (s.insert start.number .key).openBlock start.column start.number .blockMapping
    .ok ({ s with keys := none :: outer, keyAllowed := false }.push .value)
  | _ =>
    if !s.inFlow ∧ !s.keyAllowed then .error .token
    else
      let s := s.openBlock g.column s.count .blockMapping
      .ok ({ s with keyAllowed := !s.inFlow }.push .value)

/-- A token that a key may start with. -/
def pushInline (s : Scanner) (g : Glyph) (token : Token) : Except Fault Scanner := do
  let s ← s.saveKey g
  return { s with keyAllowed := false }.push token

/-- Whether a plain scalar may start with a character. -/
def startsPlain (s : Scanner) (c following : Char) : Bool :=
  !(isGap c || isFlowMark c ||
    ['-', '?', ':', '#', '&', '*', '!', '|', '>', '\x27', '"', '%', '@', '\x60'].contains c) ||
  (c = '-' && !isBlank following) ||
  (!s.inFlow && (c = '?' || c = ':') && !isGap following)

/-- Reads the token that starts at a character. -/
def token (s : Scanner) (g : Glyph) (rest : List Glyph) : Except Fault (Scanner × List Glyph) := do
  let c := g.char
  let following := next rest
  if c = '%' ∧ g.column = 0 then
    let (token, rest) ← directive rest
    return (← s.pushOutermost token, rest)
  else if startsMarker (g :: rest) then
    return (← s.pushOutermost (if c = '-' then .documentStart else .documentEnd), rest.drop 2)
  else if c = '[' then return (← s.openFlow g .flowSequence, rest)
  else if c = '\x7b' then return (← s.openFlow g .flowMapping, rest)
  else if c = ']' then return (← s.closeFlow .flowSequenceEnd, rest)
  else if c = '\x7d' then return (← s.closeFlow .flowMappingEnd, rest)
  else if c = ',' then
    let s ← s.dropKey
    return ({ s with keyAllowed := true }.push .comma, rest)
  else if c = '-' ∧ isGap following then return (← s.openEntry g .blockSequence .item, rest)
  else if c = '?' ∧ (s.inFlow ∨ isGap following) then
    return (← s.openEntry g .blockMapping .key, rest)
  else if c = ':' ∧ (s.inFlow ∨ isGap following) then return (← s.value g, rest)
  else if c = '*' then
    let (name, rest) ← anchorName rest
    return (← s.pushInline g (.alias name), rest)
  else if c = '&' then
    let (name, rest) ← anchorName rest
    return (← s.pushInline g (.anchor name), rest)
  else if c = '!' then
    let (token, rest) ← tagToken s.inFlow rest
    return (← s.pushInline g token, rest)
  else if (c = '|' ∨ c = '>') ∧ !s.inFlow then
    let s ← s.dropKey
    let (text, rest) ← block (c = '>') s.indent rest
    return ({ s with keyAllowed := true }.push (.scalar false (String.ofList text)), rest)
  else if c = '\x27' then
    let (text, rest) ← single [] {} rest
    return (← s.pushInline g (.scalar false (String.ofList text)), rest)
  else if c = '"' then
    let (text, rest) ← double .none [] {} rest
    return (← s.pushInline g (.scalar false (String.ofList text)), rest)
  else if s.startsPlain c following then
    let (text, lineEnded, rest) ← plain s.inFlow (s.indent + 1) [] {} (g :: rest)
    let s ← s.pushInline g (.scalar true (String.ofList text))
    return ({ s with keyAllowed := lineEnded }, rest)
  else .error .token

/-- Passes over blanks, line breaks and comments to the next token.  A new line of a block lets a
key begin; where one may begin, tabs are no blanks. -/
def toToken (inFlow keyAllowed inComment : Bool) : List Glyph → Bool × List Glyph
  | [] => (keyAllowed, [])
  | g :: rest =>
    if isBreak g.char then toToken inFlow (keyAllowed || !inFlow) false rest
    else if isEnd g.char then (keyAllowed, g :: rest)
    else if inComment ∨ g.char = ' ' ∨ (g.char = '\t' ∧ (inFlow ∨ !keyAllowed)) then
      toToken inFlow keyAllowed inComment rest
    else if g.char = '#' then toToken inFlow keyAllowed true rest
    else (keyAllowed, g :: rest)

/-- Reads tokens up to the end of the text.  Every token takes at least one character, so their
number is fuel enough. -/
def run : (fuel : Nat) → Scanner → List Glyph → Except Fault (List Token)
  | 0, _, _ => .error .token
  | fuel + 1, s, gs => do
    let (keyAllowed, gs) := toToken s.inFlow s.keyAllowed false gs
    match gs with
    | [] => .error .token
    | g :: rest =>
      let s ← { s with keyAllowed := keyAllowed }.expireKeys g
      let s := s.closeBlocks g.column
      if isEnd g.char then
        let s ← (s.closeBlocks (-1)).dropKey
        return s.tokens.reverse
      else
        let (s, rest) ← s.token g rest
        run fuel s rest

end Scanner

/-- The tokens of a text. -/
def tokens (text : String) : Except Fault (List Token) := do
  let gs ← glyphs text
  Scanner.run (gs.length + 1) {} gs

end Admission.Yaml
