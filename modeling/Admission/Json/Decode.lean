import Admission.Json.Basic
import Admission.Text.Base64
import Admission.Width

/-!
# Typed values out of JSON

A decoder gives a value or the cause why there is none.  Two ways of treating `null` occur: a
*nullable* field takes `null` for absence, and a *defaulted* field has a default when it is absent
but refuses `null`.
-/

namespace Admission

/-- Why a value is not of the wanted form. -/
inductive DecodeError where
  /-- Another kind of value was expected. -/
  | expected (what : String)
  /-- A field that has no default is absent. -/
  | missing (field : String)
  /-- A field is there twice. -/
  | repeated (field : String)
  /-- An array has more items than the record has fields. -/
  | tooLong
  /-- The text is not JSON. -/
  | malformed
  deriving DecidableEq, Repr

namespace DecodeError

/-- The wording. -/
def message : DecodeError → String
  | .expected what => s!"expected {what}"
  | .missing field => s!"missing field {field}"
  | .repeated field => s!"duplicate field {field}"
  | .tooLong => "too many items"
  | .malformed => "malformed text"

end DecodeError

/-- The result of decoding. -/
abbrev Decoded (α : Type) := Except DecodeError α

namespace Json

/-! ## 1. single values -/

def asText : Json → Decoded String
  | .str text => .ok text
  | _ => .error (.expected "a string")

def asBool : Json → Decoded Bool
  | .bool b => .ok b
  | _ => .error (.expected "a boolean")

/-- A whole number of a fixed width, two's complement. -/
def asSigned (width : Nat) : Json → Decoded Int
  | .int n =>
    if Width.fitsSigned width n then .ok n
    else .error (.expected "a number in range")
  | _ => .error (.expected "a whole number")

def asInt32 : Json → Decoded Int := asSigned 32

def asInt64 : Json → Decoded Int := asSigned 64

/-- Bytes, written in base64. -/
def asBytes (value : Json) : Decoded (List UInt8) := do
  match Base64.decode? (← value.asText) with
  | some bytes => .ok bytes
  | none => .error (.expected "base64")

def asFields : Json → Decoded (Fields Json)
  | .obj fields => .ok fields
  | _ => .error (.expected "an object")

def asList {α : Type} (item : Json → Decoded α) : Json → Decoded (List α)
  | .arr items => items.mapM item
  | _ => .error (.expected "an array")

/-- A map; of several values for one key the last stays. -/
def asDict {α : Type} (item : Json → Decoded α) (value : Json) : Decoded (Dict α) := do
  let pairs ← (← value.asFields).mapM fun (key, v) => do return (key, ← item v)
  return .ofFields pairs

/-- A value or `null`. -/
def orNull {α : Type} (item : Json → Decoded α) : Json → Decoded (Option α)
  | .null => .ok none
  | value => some <$> item value

/-! ## 2. records -/

/-- The named fields of a record: from an object by name, each at most once, others being passed
over; from an array by position. -/
def asRecord (names : List String) : Json → Decoded (Fields Json)
  | .obj fields =>
    match names.find? (fun name => 1 < (fields.filter (·.1 = name)).length) with
    | some name => .error (.repeated name)
    | none => .ok fields
  | .arr items => if items.length ≤ names.length then .ok (names.zip items) else .error .tooLong
  | _ => .error (.expected "a record")

end Json

namespace Fields

/-- A field that must be there. -/
def required {α : Type} (key : String) (item : Json → Decoded α) (fields : Fields Json) :
    Decoded α :=
  match fields.get? key with
  | some value => item value
  | none => .error (.missing key)

/-- A field with a default for its absence. -/
def defaulted {α : Type} (key : String) (default : α) (item : Json → Decoded α)
    (fields : Fields Json) : Decoded α :=
  match fields.get? key with
  | some value => item value
  | none => .ok default

/-- A field whose absence may also be written `null`. -/
def nullable {α : Type} (key : String) (item : Json → Decoded α) (fields : Fields Json) :
    Decoded (Option α) :=
  match fields.get? key with
  | some value => value.orNull item
  | none => .ok none

/-- The same of a field that may be repeated: each occurrence is read, and the last one counts. -/
def lastNullable {α : Type} (key : String) (item : Json → Decoded α) (fields : Fields Json) :
    Decoded (Option α) :=
  (fields.filter (·.1 = key)).foldlM (fun _ pair => pair.2.orNull item) none

/-- A field with a default for its absence and for `null`. -/
def nullableD {α : Type} (key : String) (default : α) (item : Json → Decoded α)
    (fields : Fields Json) : Decoded α :=
  (·.getD default) <$> fields.nullable key item

end Fields

namespace Json

/-- The object of the fields that have a value. -/
def ofSome (fields : List (String × Option Json)) : Json :=
  .obj (fields.filterMap fun (key, value?) => value?.map (key, ·))

/-- A text field that is left out when empty. -/
def nonempty (text : String) : Option Json := if text = "" then none else some (.str text)

/-- The array of a list of texts. -/
def ofStrings (texts : List String) : Json := .arr (texts.map .str)

end Json

end Admission
