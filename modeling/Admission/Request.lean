import Admission.Object.Basic
import Admission.Operation
import Admission.Text.Quoted

/-!
# Requests and what is recorded about them

A `Request` is one API request as admission sees it.  While it is decided on, audit annotations and
warnings are collected in its `AuditRecord`: an annotation once set keeps its value, warnings are
kept in the order they come.
-/

namespace Admission

/-- Who makes a request. -/
structure UserInfo where
  username : Option String := none
  uid : Option String := none
  groups : Option (List String) := none
  extra : Option (Dict (List String)) := none
  deriving DecidableEq, Inhabited

namespace UserInfo

def ofJson (value : Json) : Decoded UserInfo := do
  let fields ← value.asFields
  return {
    username := ← fields.lastNullable "username" Json.asText
    uid := ← fields.lastNullable "uid" Json.asText
    groups := ← fields.lastNullable "groups" (Json.asList Json.asText)
    extra := ← fields.lastNullable "extra" (Json.asDict (Json.asList Json.asText)) }

def toJson (u : UserInfo) : Json :=
  .ofSome [("extra", u.extra.map fun extra => .ofDict (extra.map .ofStrings)),
    ("groups", u.groups.map .ofStrings), ("uid", u.uid.map .str),
    ("username", u.username.map .str)]

end UserInfo

/-- An annotation that is already there with another value. -/
structure AnnotationConflict where
  key : String
  existing : String
  value : String
  deriving DecidableEq, Repr

def AnnotationConflict.message (c : AnnotationConflict) : String :=
  s!"annotation {Text.quoted c.key} is already set to {Text.quoted c.existing}, " ++
    s!"refusing to change it to {Text.quoted c.value}"

/-- What is collected while a request is decided on. -/
structure AuditRecord where
  annotations : Dict String
  warnings : List String
  deriving DecidableEq

namespace AuditRecord

def empty : AuditRecord := ⟨∅, []⟩

instance : Inhabited AuditRecord := ⟨empty⟩

/-- Sets an annotation.  Setting it again to its value changes nothing, setting it to another value
is refused. -/
def annotate (record : AuditRecord) (key value : String) :
    Except AnnotationConflict AuditRecord :=
  match record.annotations.get? key with
  | some existing => if existing = value then .ok record else .error ⟨key, existing, value⟩
  | none => .ok { record with annotations := record.annotations.insert key value }

/-- Sets an annotation unless it has a value already. -/
def offer (record : AuditRecord) (key value : String) : AuditRecord :=
  match record.annotate key value with
  | .ok record => record
  | .error _ => record

def warn (record : AuditRecord) (text : String) : AuditRecord :=
  { record with warnings := record.warnings ++ [text] }

end AuditRecord

/-- One API request. -/
structure Request where
  uid : String
  kind : GroupVersionKind
  resource : GroupVersionResource
  operation : Operation
  name : String := ""
  namespaceName : String := ""
  subresource : String := ""
  dryRun : Bool := false
  object : Option Object := none
  oldObject : Option Object := none
  options : Option Json := none
  userInfo : UserInfo := {}
  deriving DecidableEq

end Admission
