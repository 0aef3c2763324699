import Admission.Json.Basic
import Admission.Width

/-!
# Numbers in JSON text

A literal without fraction and exponent is a whole number if it fits 64 bits, signed when negative
and unsigned otherwise; `-0` and everything else is a double.  The digits of a double are collected
into a 64-bit significand until the next one no longer fits; the double is the significand
times or over one exact power of ten.
-/

namespace Admission.Json

/-- The parts of a number literal. -/
structure Literal where
  negative : Bool
  whole : List Char
  fraction : List Char
  exponent : Option Int
  deriving DecidableEq, Repr

namespace Literal

def digitValue (c : Char) : Nat := c.toNat - '0'.toNat

/-- The number a run of digits names. -/
def natOfDigits (digits : List Char) : Nat :=
  digits.foldl (fun n c => 10 * n + digitValue c) 0

/-- The exponent part, after its mark. -/
def exponent? (chars : List Char) : Option Int :=
  let (negative, digits) := match chars with
    | '-' :: rest => (true, rest)
    | '+' :: rest => (false, rest)
    | rest => (false, rest)
  if digits ≠ [] ∧ digits.all Char.isDigit then
    let n : Int := natOfDigits digits
    some (if negative then -n else n)
  else none

/-- The literal of a sign and whole digits, and of the fraction and the exponent in what follows
them.  A point must have digits after it. -/
def ofTail? (negative : Bool) (whole rest : List Char) : Option Literal :=
  let (fraction?, rest) := match rest with
    | '.' :: rest => (some (rest.takeWhile Char.isDigit), rest.dropWhile Char.isDigit)
    | rest => (none, rest)
  if fraction? = some [] then none
  else
    let fraction := fraction?.getD []
    match rest with
    | [] => some ⟨negative, whole, fraction, if fraction?.isSome then some 0 else none⟩
    | mark :: rest =>
      if mark = 'e' ∨ mark = 'E' then
        (exponent? rest).map fun e => ⟨negative, whole, fraction, some e⟩
      else none

/-- Takes a word apart as a number: no leading zeros, no lone point, no empty exponent. -/
def ofWord? (word : List Char) : Option Literal :=
  let (negative, rest) := match word with
    | '-' :: rest => (true, rest)
    | rest => (false, rest)
  let whole := rest.takeWhile Char.isDigit
  if whole = [] ∨ (whole.head? = some '0' ∧ whole ≠ ['0']) then none
  else ofTail? negative whole (rest.dropWhile Char.isDigit)

/-- Takes a word apart as a number with leniency: a sign of either kind, leading zeros, and a point
with digits on one side only are allowed. -/
def ofLooseWord? (word : List Char) : Option Literal :=
  let (negative, rest) := match word with
    | '-' :: rest => (true, rest)
    | '+' :: rest => (false, rest)
    | rest => (false, rest)
  let whole := rest.takeWhile Char.isDigit
  let (fraction, rest) := match rest.dropWhile Char.isDigit with
    | '.' :: rest => (rest.takeWhile Char.isDigit, rest.dropWhile Char.isDigit)
    | rest => ([], rest)
  if whole = [] ∧ fraction = [] then none
  else
    match rest with
    | [] => some ⟨negative, whole, fraction, some 0⟩
    | mark :: rest =>
      if mark = 'e' ∨ mark = 'E' then
        (exponent? rest).map fun e => ⟨negative, whole, fraction, some e⟩
      else none

/-- Digits go into the significand as long as it stays below `2 ^ 64`; gives the significand and
how many of the digits did not go in. -/
def significand (start : Nat) (digits : List Char) : Nat × Nat :=
  match digits with
  | [] => (start, 0)
  | c :: rest =>
    let next := 10 * start + digitValue c
    if next < Width.count 64 then significand next rest else (start, rest.length + 1)

/-- The double `significand · 10 ^ exponent`, none when it is too large. -/
def scale? (significand : Nat) (exponent : Int) : Option Float :=
  let f := (UInt64.ofNat significand).toFloat
  let power (n : Nat) : Float := Float.ofScientific 1 false n
  if f == 0 then some f
  else if 0 ≤ exponent then
    if exponent > 308 then none
    else
      let g := f * power exponent.toNat
      if g.isInf then none else some g
  else if exponent ≥ -308 then some (f / power (-exponent).toNat)
  else if exponent ≥ -616 then some (f / power 308 / power (-exponent - 308).toNat)
  else some 0

/-- The double of a literal, none when it is too large. -/
def toDouble? (l : Literal) : Option UInt64 :=
  let (whole, dropped) := significand 0 l.whole
  let (all, rest) := significand whole l.fraction
  let exponent : Int := dropped - (l.fraction.length - rest : Nat) + l.exponent.getD 0
  (scale? all exponent).map fun f => (if l.negative then -f else f).toBits

/-- The value of a literal, none when it is too large for a double. -/
def value? (l : Literal) : Option Json :=
  let n := natOfDigits l.whole
  if l.exponent = none ∧ !l.negative ∧ n < Width.count 64 then some (.int n)
  else if l.exponent = none ∧ l.negative ∧ n ≠ 0 ∧ n ≤ Width.count 63 then some (.int (-n))
  else l.toDouble?.map .double

end Literal

end Admission.Json
