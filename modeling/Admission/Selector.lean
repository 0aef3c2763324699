import Admission.Json.Decode
import Admission.Text.Quoted

/-!
# Label selectors

A selector is a conjunction of label pairs and requirements.  It is checked as a whole before any
label is looked at, so a selector that is wrong is wrong for all labels.
-/

namespace Admission

/-- Labels of an object or a namespace. -/
abbrev Labels := Dict String

/-- A condition on the value of one label. -/
structure Requirement where
  key : String
  operator : String
  values : Option (List String)
  deriving DecidableEq, Repr

/-- A conjunction of conditions on labels. -/
structure LabelSelector where
  matchLabels : Option Labels := none
  matchExpressions : Option (List Requirement) := none
  deriving DecidableEq, Inhabited

/-- What is wrong with a requirement. -/
inductive SelectorError where
  | invalidOperator (operator : String)
  /-- `In` or `NotIn` without values, at a key. -/
  | missingValues (key : String)
  /-- `Exists` or `DoesNotExist` with values, at a key. -/
  | unexpectedValues (key : String)
  deriving DecidableEq, Repr

def SelectorError.message : SelectorError → String
  | .invalidOperator operator => s!"{Text.quoted operator} is not a valid label selector operator"
  | .missingValues key =>
    s!"values: must be specified when \x60operator\x60 is \x27In\x27 or \x27NotIn\x27 " ++
      s!"(key {Text.quoted key})"
  | .unexpectedValues key =>
    s!"values: may not be specified when \x60operator\x60 is \x27Exists\x27 or " ++
      s!"\x27DoesNotExist\x27 (key {Text.quoted key})"

namespace Requirement

/-- The values, none counting as the empty list. -/
def valueList (r : Requirement) : List String := r.values.getD []

/-- Whether the operator is known and has values exactly if it needs them. -/
def check (r : Requirement) : Except SelectorError Unit :=
  if r.operator = "In" ∨ r.operator = "NotIn" then
    if r.valueList = [] then .error (.missingValues r.key) else .ok ()
  else if r.operator = "Exists" ∨ r.operator = "DoesNotExist" then
    if r.valueList = [] then .ok () else .error (.unexpectedValues r.key)
  else .error (.invalidOperator r.operator)

/-- Whether labels meet a requirement. -/
def holds (r : Requirement) (labels : Labels) : Bool :=
  match labels.get? r.key with
  | some value =>
    if r.operator = "In" then r.valueList.contains value
    else if r.operator = "NotIn" then !r.valueList.contains value
    else r.operator = "Exists"
  | none => r.operator = "NotIn" || r.operator = "DoesNotExist"

def ofJson (value : Json) : Decoded Requirement := do
  let fields ← value.asFields
  return ⟨← fields.nullableD "key" "" Json.asText, ← fields.nullableD "operator" "" Json.asText,
    ← fields.nullable "values" (Json.asList Json.asText)⟩

def toJson (r : Requirement) : Json :=
  .ofSome [("key", some (.str r.key)), ("operator", some (.str r.operator)),
    ("values", r.values.map .ofStrings)]

end Requirement

namespace LabelSelector

/-- The label pairs, none counting as no pairs. -/
def pairs (s : LabelSelector) : List (String × String) := (s.matchLabels.getD ∅).fields

/-- The requirements, none counting as the empty list. -/
def requirements (s : LabelSelector) : List Requirement := s.matchExpressions.getD []

/-- Whether the selector has no conditions. -/
def isEmpty (s : LabelSelector) : Bool := s.pairs.isEmpty && s.requirements.isEmpty

/-- The first thing wrong with the selector, if anything is. -/
def check (s : LabelSelector) : Except SelectorError Unit := s.requirements.forM Requirement.check

/-- Whether labels meet every condition. -/
def holds (s : LabelSelector) (labels : Labels) : Bool :=
  s.pairs.all (fun (key, value) => labels.get? key = some value) &&
    s.requirements.all (·.holds labels)

/-- Whether a selector that is right selects the labels. -/
def selects (s : LabelSelector) (labels : Labels) : Except SelectorError Bool := do
  s.check
  return s.holds labels

/-- Reads a selector; every item of its requirements first goes through `prepare`. -/
def read (prepare : Json → Json) (value : Json) : Decoded LabelSelector := do
  let fields ← value.asFields
  return ⟨← fields.nullable "matchLabels" (Json.asDict Json.asText),
    ← fields.nullable "matchExpressions"
      (Json.asList fun item => Requirement.ofJson (prepare item))⟩

def ofJson (value : Json) : Decoded LabelSelector := read id value

def toJson (s : LabelSelector) : Json :=
  .ofSome [("matchExpressions", s.matchExpressions.map fun list => .arr (list.map (·.toJson))),
    ("matchLabels", s.matchLabels.map .ofTexts)]

end LabelSelector

/-- The labels of each namespace there is. -/
abbrev NamespaceLister := String → Option Labels

end Admission
