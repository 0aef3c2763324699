import Admission.Json.Basic

/-!
# JSON pointers

A pointer is the list of the keys and indexes on the way to a value.  In its text every step follows
a slash, `~1` standing for a slash and `~0` for a tilde.
-/

namespace Admission

/-- The way to a value inside another: keys of objects, and indexes of arrays in digits. -/
abbrev Pointer := List String

namespace Pointer

/-- The steps of a text, the first character after its slash; `done` holds the current step, last
character first. -/
def steps? (done : List Char) : List Char → Option Pointer
  | [] => some [String.ofList done.reverse]
  | '/' :: rest => (steps? [] rest).map (String.ofList done.reverse :: ·)
  | '~' :: '0' :: rest => steps? ('~' :: done) rest
  | '~' :: '1' :: rest => steps? ('/' :: done) rest
  | '~' :: _ => none
  | c :: rest => steps? (c :: done) rest

/-- The pointer of a text: empty, or a slash and steps. -/
def ofText? (text : String) : Option Pointer :=
  match text.toList with
  | [] => some []
  | '/' :: rest => steps? [] rest
  | _ => none

/-- The characters of a step. -/
def stepText (step : String) : String :=
  String.ofList (step.toList.flatMap fun c =>
    if c = '~' then ['~', '0'] else if c = '/' then ['~', '1'] else [c])

/-- The text of a pointer. -/
def text (pointer : Pointer) : String := String.join (pointer.map fun step => "/" ++ stepText step)

/-- The index a step names, if it is below the limit: digits without a leading zero. -/
def index? (limit : Nat) (step : String) : Option Nat :=
  let digits := step.toList
  if digits = [] ∨ !digits.all Char.isDigit ∨ (digits.head? = some '0' ∧ digits ≠ ['0']) then none
  else
    let n := digits.foldl (fun n c => 10 * n + (c.toNat - 48)) 0
    if n < limit then some n else none

end Pointer

namespace Json

/-- The value a pointer leads to. -/
def at? : Pointer → Json → Option Json
  | [], value => some value
  | key :: rest, .obj fields => (Fields.get? key fields).bind (at? rest)
  | step :: rest, .arr items => (Pointer.index? items.length step).bind fun i =>
      items[i]?.bind (at? rest)
  | _ :: _, _ => none

/-- Changes the value a pointer leads to; there must be one. -/
def modifyAt {ε : Type} (absent : ε) (change : Json → Except ε Json) :
    Pointer → Json → Except ε Json
  | [], value => change value
  | key :: rest, .obj fields =>
    match Fields.get? key fields with
    | some inner => do return .obj (Fields.insert key (← modifyAt absent change rest inner) fields)
    | none => .error absent
  | step :: rest, .arr items =>
    match Pointer.index? items.length step with
    | none => .error absent
    | some i =>
      match items[i]? with
      | some inner => do return .arr (items.set i (← modifyAt absent change rest inner))
      | none => .error absent
  | _ :: _, _ => .error absent

end Json

end Admission
