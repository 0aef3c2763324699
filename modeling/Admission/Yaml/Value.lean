import Admission.Yaml.Tree

/-!
# Values of YAML documents

A mapping may have keys of any form, each once, and a value may carry a tag of its own.  What the
document says as JSON is the value without its tags.

* `agree_eq_true_iff` : comparing values is equality.
-/

namespace Admission.Yaml

/-- A value. -/
inductive Value where
  | leaf (value : Json)
  | seq (items : List Value)
  | map (pairs : List (Value × Value))
  | tagged (tag : String) (value : Value)
  deriving Inhabited

namespace Value

/-! ## 1. equality -/

mutual

/-- Whether two values are equal. -/
def agree : Value → Value → Bool
  | .leaf a, .leaf b => a = b
  | .seq a, .seq b => agreeItems a b
  | .map a, .map b => agreePairs a b
  | .tagged t a, .tagged u b => t = u && agree a b
  | _, _ => false

def agreeItems : List Value → List Value → Bool
  | [], [] => true
  | a :: as, b :: bs => agree a b && agreeItems as bs
  | _, _ => false

def agreePairs : List (Value × Value) → List (Value × Value) → Bool
  | [], [] => true
  | (k, a) :: as, (l, b) :: bs => agree k l && agree a b && agreePairs as bs
  | _, _ => false

end

mutual

theorem agree_eq_true_iff : ∀ a b : Value, agree a b = true ↔ a = b
  | .leaf _, b => by cases b <;> simp [agree]
  | .seq as, b => by
    cases b with
    | seq bs => simp [agree, agreeItems_eq_true_iff as bs]
    | _ => simp [agree]
  | .map as, b => by
    cases b with
    | map bs => simp [agree, agreePairs_eq_true_iff as bs]
    | _ => simp [agree]
  | .tagged _ a, b => by
    cases b with
    | tagged _ b => simp [agree, agree_eq_true_iff a b]
    | _ => simp [agree]

theorem agreeItems_eq_true_iff : ∀ as bs : List Value, agreeItems as bs = true ↔ as = bs
  | [], bs => by cases bs <;> simp [agreeItems]
  | a :: as, bs => by
    cases bs with
    | nil => simp [agreeItems]
    | cons b bs => simp [agreeItems, agree_eq_true_iff a b, agreeItems_eq_true_iff as bs]

theorem agreePairs_eq_true_iff :
    ∀ as bs : List (Value × Value), agreePairs as bs = true ↔ as = bs
  | [], bs => by cases bs <;> simp [agreePairs]
  | (k, a) :: as, bs => by
    cases bs with
    | nil => simp [agreePairs]
    | cons b bs =>
      obtain ⟨l, b⟩ := b
      simp [agreePairs, agree_eq_true_iff k l, agree_eq_true_iff a b, agreePairs_eq_true_iff as bs]

end

instance : DecidableEq Value := fun a b => decidable_of_iff _ (agree_eq_true_iff a b)

/-! ## 2. out of a tree -/

/-- The value of a scalar; a whole number must fit 64 bits. -/
def ofScalar (tag : Option String) (plain : Bool) (text : String) : Except Fault Value := do
  match ← Scalar.value tag plain text with
  | .int n => if Width.fits 64 n then return .leaf (.int n) else throw .scalar
  | value => return .leaf value

/-- Puts a tag of the document's own on a value; it must have a name. -/
def withTag (tag : Option String) (value : Except Fault Value) : Except Fault Value :=
  match localTag? tag with
  | some "" => .error .tag
  | some name => .tagged name <$> value
  | none => value

mutual

/-- The value of a tree. -/
def ofTree : Tree → Except Fault Value
  | .scalar tag plain text =>
    withTag tag (ofScalar (if (localTag? tag).isSome then none else tag) plain text)
  | .sequence tag items => withTag tag (.seq <$> ofItems items)
  | .mapping tag pairs => withTag tag (.map <$> ofPairs [] pairs)

def ofItems : List Tree → Except Fault (List Value)
  | [] => .ok []
  | item :: rest => do return (← ofTree item) :: (← ofItems rest)

/-- The pairs of a mapping whose keys are new beside those `taken`. -/
def ofPairs (taken : List Value) : List (Tree × Tree) → Except Fault (List (Value × Value))
  | [] => .ok []
  | (key, value) :: rest => do
    let key ← ofTree key
    if taken.contains key then throw .duplicateKey
    else return (key, ← ofTree value) :: (← ofPairs (key :: taken) rest)

end

/-- The values of the documents of a text. -/
def readAll (text : String) : Except Fault (List Value) := do
  (← trees text).mapM ofTree

/-! ## 3. what it says -/

/-- A value without the tags around it. -/
def untag : Value → Value
  | .tagged _ value => untag value
  | value => value

/-- The text that a value is. -/
def text? (v : Value) : Option String :=
  match v.untag with
  | .leaf (.str text) => some text
  | _ => none

/-- The value under a text as key. -/
def field? (key : String) (v : Value) : Option Value :=
  match v.untag with
  | .map pairs => (pairs.find? fun (k, _) => k = .leaf (.str key)).map (·.2)
  | _ => none

/-- The JSON value for what has no JSON form: a number that is none. -/
def unwritable : Json := .double 0x7FF8000000000000

mutual

/-- The value as JSON.  A mapping with a key that is no text has no JSON form.  A null with a tag is
a record without fields. -/
def toJson : Value → Json
  | .leaf value => value
  | .seq items => .arr (itemsToJson items)
  | .map pairs =>
    match pairsToJson pairs with
    | some fields => .obj fields
    | none => unwritable
  | .tagged _ value =>
    match toJson value with
    | .null => .obj []
    | value => value

def itemsToJson : List Value → List Json
  | [] => []
  | item :: rest => toJson item :: itemsToJson rest

def pairsToJson : List (Value × Value) → Option (List (String × Json))
  | [] => some []
  | (key, value) :: rest => do
    let fields ← pairsToJson rest
    return (← key.text?, toJson value) :: fields

end

end Value

end Admission.Yaml
