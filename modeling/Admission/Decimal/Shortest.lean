/-!
# The shortest decimal that reads back

A finite double is `m · 2 ^ q`.  The reals that round to it are an interval around it, ends included
exactly if `m` is even.  Its shortest decimal is the point of the coarsest decimal grid that meets
the interval next to the value; of the two grid points beside the value the nearer one is taken.
All arithmetic is on whole numbers.

`Layout` says how the digits are written: where positional notation ends at either side.
-/

namespace Admission.Decimal

/-- A decimal `digits · 10 ^ exponent`, the digits without leading zero. -/
structure Scientific where
  digits : Nat
  exponent : Int
  deriving DecidableEq, Repr

/-- A double taken apart. -/
structure Binary where
  negative : Bool
  /-- The significand, a whole number. -/
  significand : Nat
  /-- The power of two it is multiplied with. -/
  exponent : Int
  /-- Whether the next smaller double is only half a step away. -/
  narrow : Bool
  deriving DecidableEq, Repr

/-- The parts of a finite double; none for the infinities and for what is not a number. -/
def Binary.ofBits? (bits : UInt64) : Option Binary :=
  let fraction := (bits &&& 0xFFFFFFFFFFFFF).toNat
  let power := ((bits >>> 52) &&& 0x7FF).toNat
  let negative := bits >>> 63 = 1
  if power = 0x7FF then none
  else if power = 0 then some ⟨negative, fraction, -1074, false⟩
  else some ⟨negative, Nat.pow 2 52 + fraction, power - 1075, fraction = 0 && power > 1⟩

/-- A nonnegative number over a positive one. -/
structure Ratio where
  num : Nat
  den : Nat

/-- `n · 2 ^ e` as a ratio. -/
def Ratio.scaled (n : Nat) (e : Int) : Ratio :=
  if 0 ≤ e then ⟨n * Nat.pow 2 e.toNat, 1⟩ else ⟨n, Nat.pow 2 (-e).toNat⟩

/-- `n · 10 ^ e` as a ratio. -/
def Ratio.decimal (n : Nat) (e : Int) : Ratio :=
  if 0 ≤ e then ⟨n * Nat.pow 10 e.toNat, 1⟩ else ⟨n, Nat.pow 10 (-e).toNat⟩

def Ratio.lt (a b : Ratio) : Bool := a.num * b.den < b.num * a.den

def Ratio.le (a b : Ratio) : Bool := a.num * b.den ≤ b.num * a.den

/-- The decimal order of a positive double: `10 ^ order ≤ value < 10 ^ (order + 1)`. -/
def order (value : Ratio) : Int :=
  (Nat.toDigits 10 (value.num * Nat.pow 10 340 / value.den)).length - 341

/-- The whole part of `value / 10 ^ e`. -/
def quotient (value : Ratio) (e : Int) : Nat :=
  if 0 ≤ e then value.num / (value.den * Nat.pow 10 e.toNat)
  else value.num * Nat.pow 10 (-e).toNat / value.den

/-- The distance between a value and a grid point, over one common denominator. -/
def distance (value point : Ratio) : Nat :=
  let a := value.num * point.den
  let b := point.num * value.den
  (a - b) + (b - a)

namespace Binary

def value (b : Binary) : Ratio := .scaled b.significand b.exponent

/-- Whether a point rounds to the double. -/
def contains (b : Binary) (point : Ratio) : Bool :=
  let low : Ratio :=
    if b.narrow then .scaled (4 * b.significand - 1) (b.exponent - 2)
    else .scaled (2 * b.significand - 1) (b.exponent - 1)
  let high : Ratio := .scaled (2 * b.significand + 1) (b.exponent - 1)
  if b.significand % 2 = 0 then low.le point && point.le high else low.lt point && point.lt high

/-- The better of the two points of the grid `10 ^ e` beside the value, if one rounds to it. -/
def onGrid? (b : Binary) (e : Int) : Option Scientific :=
  let below := quotient b.value e
  let above := below + 1
  let low := Ratio.decimal below e
  let high := Ratio.decimal above e
  let hitLow := below ≠ 0 && b.contains low
  let hitHigh := b.contains high
  let preferLow :=
    distance b.value low < distance b.value high ||
      (distance b.value low = distance b.value high && below % 2 = 0)
  if hitLow && (preferLow || !hitHigh) then some ⟨below, e⟩
  else if hitHigh then some ⟨above, e⟩
  else none

/-- The shortest decimal of a positive double, on the first of 17 finer and finer grids. -/
def shortest (b : Binary) : Scientific :=
  let top := order b.value
  ((List.range 17).findSome? (fun (finer : Nat) => b.onGrid? (top - finer))).getD ⟨b.significand, 0⟩

end Binary

/-- Drops the zeros at the end of the digits; at most `fuel` of them. -/
def Scientific.trim (fuel : Nat) (s : Scientific) : Scientific :=
  match fuel with
  | 0 => s
  | fuel + 1 =>
    if s.digits ≠ 0 ∧ s.digits % 10 = 0 then trim fuel ⟨s.digits / 10, s.exponent + 1⟩ else s

/-- Where positional notation ends.  A value `0.d₁d₂… · 10 ^ p` is written positionally if
`low < p ≤ high`, and else as `d₁.d₂…e(p-1)`.  A whole number keeps a `.0`. -/
structure Layout where
  low : Int
  high : Int

/-- The text of a decimal under a layout. -/
def Scientific.render (layout : Layout) (s : Scientific) : String :=
  let digits := Nat.toDigits 10 s.digits
  let point : Int := digits.length + s.exponent
  if 0 ≤ s.exponent ∧ point ≤ layout.high then
    String.ofList (digits ++ List.replicate s.exponent.toNat '0') ++ ".0"
  else if 0 < point ∧ point ≤ layout.high then
    String.ofList (digits.take point.toNat) ++ "." ++ String.ofList (digits.drop point.toNat)
  else if layout.low < point ∧ point ≤ 0 then
    "0." ++ String.ofList (List.replicate (-point).toNat '0' ++ digits)
  else
    let mantissa := match digits with
      | [d] => String.ofList [d]
      | d :: rest => String.ofList (d :: '.' :: rest)
      | [] => ""
    mantissa ++ "e" ++ toString (point - 1)

/-- The text of a finite double under a layout; none for the others. -/
def render? (layout : Layout) (bits : UInt64) : Option String :=
  (Binary.ofBits? bits).map fun b =>
    let sign := if b.negative then "-" else ""
    if b.significand = 0 then sign ++ "0.0"
    else sign ++ (b.shortest.trim 17).render layout

end Admission.Decimal
