/-!
# Widths of whole numbers

Which whole numbers fit into so many bits, without a sign and in two's complement.
-/

namespace Admission.Width

/-- How many values so many bits have. -/
def count (bits : Nat) : Nat := Nat.pow 2 bits

/-- Whether a number fits without a sign. -/
def fitsUnsigned (bits : Nat) (n : Int) : Bool := 0 ≤ n && n < count bits

/-- Whether a number fits in two's complement. -/
def fitsSigned (bits : Nat) (n : Int) : Bool := -(count (bits - 1) : Int) ≤ n && n < count (bits - 1)

/-- Whether a number fits one way or the other. -/
def fits (bits : Nat) (n : Int) : Bool := fitsSigned bits n || fitsUnsigned bits n

end Admission.Width
