import Admission.Json.Number
import Admission.Width
import Admission.Yaml.Node

/-!
# What YAML documents say

In a tree every alias has been replaced by the node it stands for.  Collections may be nested 128
deep, counted through aliases, and the aliases passed on the way may not be more than a hundred
times the parts of the document.

The value of a plain scalar without a tag is read off its text; any other scalar is text, unless its
tag asks for one of the values that have a text of their own.
-/

namespace Admission.Yaml

/-- A node without aliases. -/
inductive Tree where
  | scalar (tag : Option String) (plain : Bool) (text : String)
  | sequence (tag : Option String) (items : List Tree)
  | mapping (tag : Option String) (pairs : List (Tree × Tree))

/-! ## 1. aliases -/

namespace Document

/-- The node of an anchor; of several with one number the one that begins last. -/
def anchored? (d : Document) (number : Nat) : Option Node :=
  let candidates := d.anchored.filter (·.2.1 = number)
  (candidates.foldl (fun best c => match best with
    | some b => if b.1 < c.1 then some c else some b
    | none => some c) (none : Option (Nat × Nat × Node))).map (·.2.2)

/-- Replaces an alias by its node; the state counts the aliases. -/
def follow (d : Document) : Node → StateT Nat (Except Fault) Node
  | .alias number => do
    modify (· + 1)
    if 100 * d.size < (← get) then throw .expansion
    else
      match d.anchored? number with
      | some node => return node
      | none => throw .alias
  | node => return node

/-- Replaces all aliases, in collections nested at most `depth` deep. -/
def unfold (d : Document) : (depth : Nat) → Node → StateT Nat (Except Fault) Tree
  | 0, node => do
    match ← d.follow node with
    | .scalar tag plain text => return .scalar tag plain text
    | _ => throw .depth
  | depth + 1, node => do
    match ← d.follow node with
    | .scalar tag plain text => return .scalar tag plain text
    | .sequence tag items => return .sequence tag (← items.mapM (d.unfold depth))
    | .mapping tag pairs =>
      return .mapping tag (← pairs.mapM fun (key, value) => do
        return (← d.unfold depth key, ← d.unfold depth value))
    | .alias _ => throw .alias

/-- How deep collections may be nested. -/
def maxDepth : Nat := 128

/-- The tree of a document. -/
def tree (d : Document) : Except Fault Tree := (d.unfold maxDepth d.root).run' 0

end Document

/-- The trees of the documents of a text. -/
def trees (text : String) : Except Fault (List Tree) := do
  (← documents text).mapM Document.tree

/-! ## 2. scalars -/

namespace Scalar

def isNull (text : String) : Bool := ["null", "Null", "NULL", "~"].contains text

def bool? (text : String) : Option Bool :=
  if ["true", "True", "TRUE"].contains text then some true
  else if ["false", "False", "FALSE"].contains text then some false
  else none

/-- The digits of a base, at least one. -/
def natOfDigits? (base : Nat) (digits : List Char) : Option Nat :=
  if digits = [] then none
  else digits.foldl (fun n c => do
    let d ← Text.hexValue? c
    if d < base then some (base * (← n) + d) else none) (some 0)

/-- The base that a mark in front of digits names. -/
def base? (mark : Char) : Option Nat :=
  match mark with
  | 'x' => some 16
  | 'o' => some 8
  | 'b' => some 2
  | _ => none

/-- A number without its sign: with the mark of a base, or decimal without a leading zero. -/
def magnitude? (chars : List Char) : Option Nat :=
  match chars with
  | '0' :: mark :: digits =>
    match base? mark with
    | some base => natOfDigits? base digits
    | none => none
  | digits => natOfDigits? 10 digits

/-- A whole number with its sign. -/
def signed? (chars : List Char) : Option Int :=
  match chars with
  | '-' :: chars => (magnitude? chars).map fun n => -(n : Int)
  | '+' :: chars => (magnitude? chars).map fun n => (n : Int)
  | chars => (magnitude? chars).map fun n => (n : Int)

/-- A whole number; those that need more than 128 bits are none. -/
def int? (text : String) : Option Int := (signed? text.toList).filter (Width.fits 128)

/-- Whether a text is digits alone, with a leading zero that is not all of them. -/
def hasLeadingZero (text : String) : Bool :=
  let digits := match text.toList with
    | '-' :: rest | '+' :: rest => rest
    | rest => rest
  1 < digits.length && digits.head? = some '0' && digits.all Char.isDigit

/-- A number with a fraction or an exponent, or one of the values that are no finite number. -/
def double? (text : String) : Option UInt64 :=
  let (unsigned, signed) := match text.toList with
    | '+' :: rest => (rest, rest.head? = some '-' || rest.head? = some '+')
    | rest => (rest, false)
  if signed then none
  else if [".inf", ".Inf", ".INF"].contains (String.ofList unsigned) then some 0x7FF0000000000000
  else if ["-.inf", "-.Inf", "-.INF"].contains text then some 0xFFF0000000000000
  else if [".nan", ".NaN", ".NAN"].contains text then some 0x7FF8000000000000
  else (Json.Literal.ofLooseWord? unsigned).bind Json.Literal.toDouble?

/-- The value of a plain scalar. -/
def ofPlain (text : String) : Json :=
  if text = "" ∨ isNull text then .null
  else
    match bool? text, int? text with
    | some b, _ => .bool b
    | none, some n => .int n
    | none, none =>
      if hasLeadingZero text then .str text
      else
        match double? text with
        | some bits => .double bits
        | none => .str text

/-- A value that there must be. -/
def demand (value : Option Json) : Except Fault Json :=
  match value with
  | some value => .ok value
  | none => .error .scalar

/-- The value of a scalar. -/
def value (tag : Option String) (plain : Bool) (text : String) : Except Fault Json :=
  match tag with
  | some "tag:yaml.org,2002:bool" => demand ((bool? text).map .bool)
  | some "tag:yaml.org,2002:int" => demand ((int? text).map .int)
  | some "tag:yaml.org,2002:float" => demand ((double? text).map .double)
  | some "tag:yaml.org,2002:null" => if isNull text then .ok .null else .error .scalar
  | some _ => .ok (.str text)
  | none => .ok (if plain then ofPlain text else .str text)

end Scalar

/-- Whether a tag is one of the document's own. -/
def localTag? (tag : Option String) : Option String :=
  tag.bind fun tag =>
    match tag.toList with
    | '!' :: name => some (String.ofList name)
    | _ => none

end Admission.Yaml
