import Admission.Dict

/-!
# JSON values

An object is its list of pairs in the order given, so that a text with a repeated key is still a
value; `canonical` sorts the pairs of every object and keeps the last value of each key.  A number
is a whole number, or the bit pattern of a double: `1` and `1.0` are different values.

* `agree_eq_true_iff` : comparing with equality of doubles as bit patterns is equality of values;
* `Json.same` compares doubles as numbers, so that the two zeros are the same.
-/

namespace Admission

/-- A JSON value. -/
inductive Json where
  | null
  | bool (value : Bool)
  /-- A whole number. -/
  | int (value : Int)
  /-- A double, by its bit pattern. -/
  | double (bits : UInt64)
  | str (text : String)
  | arr (items : List Json)
  | obj (fields : List (String × Json))
  deriving Inhabited

namespace Json

mutual

/-- Whether two values have one shape and equal leaves, doubles being compared by `f`. -/
def agree (f : UInt64 → UInt64 → Bool) : Json → Json → Bool
  | .null, .null => true
  | .bool a, .bool b => a == b
  | .int a, .int b => a == b
  | .double a, .double b => f a b
  | .str a, .str b => a == b
  | .arr a, .arr b => agreeItems f a b
  | .obj a, .obj b => agreeFields f a b
  | _, _ => false

/-- Whether two lists of values agree item by item. -/
def agreeItems (f : UInt64 → UInt64 → Bool) : List Json → List Json → Bool
  | [], [] => true
  | a :: as, b :: bs => agree f a b && agreeItems f as bs
  | _, _ => false

/-- Whether two objects agree pair by pair, keys included. -/
def agreeFields (f : UInt64 → UInt64 → Bool) :
    List (String × Json) → List (String × Json) → Bool
  | [], [] => true
  | (k, a) :: as, (l, b) :: bs => k == l && agree f a b && agreeFields f as bs
  | _, _ => false

end

/-! ## equality -/

mutual

theorem agree_eq_true_iff : ∀ a b : Json, agree (· == ·) a b = true ↔ a = b
  | .null, b => by cases b <;> simp [agree]
  | .bool _, b => by cases b <;> simp [agree]
  | .int _, b => by cases b <;> simp [agree]
  | .double _, b => by cases b <;> simp [agree]
  | .str _, b => by cases b <;> simp [agree]
  | .arr as, b => by
    cases b with
    | arr bs => simp [agree, agreeItems_eq_true_iff as bs]
    | _ => simp [agree]
  | .obj as, b => by
    cases b with
    | obj bs => simp [agree, agreeFields_eq_true_iff as bs]
    | _ => simp [agree]

theorem agreeItems_eq_true_iff : ∀ as bs : List Json, agreeItems (· == ·) as bs = true ↔ as = bs
  | [], bs => by cases bs <;> simp [agreeItems]
  | a :: as, bs => by
    cases bs with
    | nil => simp [agreeItems]
    | cons b bs => simp [agreeItems, agree_eq_true_iff a b, agreeItems_eq_true_iff as bs]

theorem agreeFields_eq_true_iff :
    ∀ as bs : List (String × Json), agreeFields (· == ·) as bs = true ↔ as = bs
  | [], bs => by cases bs <;> simp [agreeFields]
  | (k, a) :: as, bs => by
    cases bs with
    | nil => simp [agreeFields]
    | cons b bs =>
      obtain ⟨l, b⟩ := b
      simp [agreeFields, agree_eq_true_iff a b, agreeFields_eq_true_iff as bs]

end

instance : DecidableEq Json := fun a b => decidable_of_iff _ (agree_eq_true_iff a b)

/-- Whether two values are the same when doubles are compared as numbers. -/
def same (a b : Json) : Bool := agree (fun x y => Float.ofBits x == Float.ofBits y) a b

/-! ## objects -/

/-- The value under a key of an object. -/
def field? (key : String) : Json → Option Json
  | .obj fields => Fields.get? key fields
  | _ => none

/-- The object of a map. -/
def ofDict (dict : Dict Json) : Json := .obj dict.fields

/-- The object of a map from text to text. -/
def ofTexts (dict : Dict String) : Json := ofDict (dict.map .str)

mutual

/-- Sorts the pairs of every object; of several values for one key the last stays. -/
def canonical : Json → Json
  | .arr items => .arr (canonicalItems items)
  | .obj fields => .obj (Fields.sort (canonicalFields fields))
  | value => value

/-- `canonical` of every item. -/
def canonicalItems : List Json → List Json
  | [] => []
  | item :: rest => canonical item :: canonicalItems rest

/-- `canonical` of every value of an object's pairs. -/
def canonicalFields : List (String × Json) → List (String × Json)
  | [] => []
  | (key, value) :: rest => (key, canonical value) :: canonicalFields rest

end

end Json

end Admission
