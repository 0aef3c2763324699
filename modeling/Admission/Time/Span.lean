/-!
# Lengths of time

A span is a whole number of nanoseconds, and of any length: nothing here wraps around or fails because
the seconds of a span, or of one span behind another, no longer fit 64 bits.  It is shown in its largest
unit that gives a whole part, with as many decimals as it needs.
-/

namespace Admission.Time

/-- A length of time in nanoseconds. -/
structure Span where
  nanoseconds : Nat
  deriving DecidableEq, Repr, Inhabited

namespace Span

def ofSeconds (n : Nat) : Span := ⟨n * 1000000000⟩

def ofMilliseconds (n : Nat) : Span := ⟨n * 1000000⟩

/-- The whole seconds. -/
def seconds (s : Span) : Nat := s.nanoseconds / 1000000000

/-- What the whole seconds leave over, in nanoseconds. -/
def subsecond (s : Span) : Nat := s.nanoseconds % 1000000000

/-- The least whole number of seconds that is at least the span. -/
def secondsUp (s : Span) : Nat := if 0 < s.subsecond then s.seconds + 1 else s.seconds

/-- The decimals of `part / 10 ^ places`, without zeros at the end. -/
def decimals (part places : Nat) : String :=
  let digits := Nat.toDigits 10 part
  let all := List.replicate (places - digits.length) '0' ++ digits
  let kept := (all.reverse.dropWhile (· = '0')).reverse
  if kept = [] then "" else "." ++ String.ofList kept

/-- The text of a span in its largest fitting unit. -/
def text (s : Span) : String :=
  if 0 < s.seconds then toString s.seconds ++ decimals s.subsecond 9 ++ "s"
  else if 1000000 ≤ s.nanoseconds then
    toString (s.nanoseconds / 1000000) ++ decimals (s.nanoseconds % 1000000) 6 ++ "ms"
  else if 1000 ≤ s.nanoseconds then
    toString (s.nanoseconds / 1000) ++ decimals (s.nanoseconds % 1000) 3 ++ "µs"
  else toString s.nanoseconds ++ "ns"

end Span

end Admission.Time
