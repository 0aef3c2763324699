import Admission.Json.Decode
import Admission.Time.Instant

/-!
# Metadata of an object

The known fields only; each of them may be absent, which `null` says too.  What is absent is left
out again when the metadata are written, what is there and empty is kept.
-/

namespace Admission

/-- Reads an instant. -/
def Json.asInstant (value : Json) : Decoded Time.Instant := do
  match Time.Instant.ofText? (← value.asText) with
  | some t => .ok t
  | none => .error (.expected "a date and time")

/-- An object that another one depends on. -/
structure OwnerReference where
  apiVersion : String
  kind : String
  name : String
  uid : String
  controller : Option Bool
  blockOwnerDeletion : Option Bool
  deriving DecidableEq

namespace OwnerReference

def ofJson (value : Json) : Decoded OwnerReference := do
  let fields ← value.asFields
  return {
    apiVersion := ← fields.nullableD "apiVersion" "" Json.asText
    kind := ← fields.nullableD "kind" "" Json.asText
    name := ← fields.nullableD "name" "" Json.asText
    uid := ← fields.nullableD "uid" "" Json.asText
    controller := ← fields.nullable "controller" Json.asBool
    blockOwnerDeletion := ← fields.nullable "blockOwnerDeletion" Json.asBool }

def toJson (r : OwnerReference) : Json :=
  .ofSome [("apiVersion", some (.str r.apiVersion)),
    ("blockOwnerDeletion", r.blockOwnerDeletion.map .bool),
    ("controller", r.controller.map .bool), ("kind", some (.str r.kind)),
    ("name", some (.str r.name)), ("uid", some (.str r.uid))]

end OwnerReference

/-- Which fields one writer of an object set. -/
structure ManagedFields where
  apiVersion : Option String
  fieldsType : Option String
  fieldsV1 : Option Json
  manager : Option String
  operation : Option String
  subresource : Option String
  time : Option Time.Instant
  deriving DecidableEq

namespace ManagedFields

def ofJson (value : Json) : Decoded ManagedFields := do
  let fields ← value.asFields
  return {
    apiVersion := ← fields.nullable "apiVersion" Json.asText
    fieldsType := ← fields.nullable "fieldsType" Json.asText
    fieldsV1 := ← fields.nullable "fieldsV1" .ok
    manager := ← fields.nullable "manager" Json.asText
    operation := ← fields.nullable "operation" Json.asText
    subresource := ← fields.nullable "subresource" Json.asText
    time := ← fields.nullable "time" Json.asInstant }

def toJson (m : ManagedFields) : Json :=
  .ofSome [("apiVersion", m.apiVersion.map .str), ("fieldsType", m.fieldsType.map .str),
    ("fieldsV1", m.fieldsV1), ("manager", m.manager.map .str),
    ("operation", m.operation.map .str), ("subresource", m.subresource.map .str),
    ("time", m.time.map fun t => .str t.text)]

end ManagedFields

/-- The metadata of an object. -/
structure ObjectMeta where
  annotations : Option (Dict String) := none
  creationTimestamp : Option Time.Instant := none
  deletionGracePeriodSeconds : Option Int := none
  deletionTimestamp : Option Time.Instant := none
  finalizers : Option (List String) := none
  generateName : Option String := none
  generation : Option Int := none
  labels : Option (Dict String) := none
  managedFields : Option (List ManagedFields) := none
  name : Option String := none
  namespaceName : Option String := none
  ownerReferences : Option (List OwnerReference) := none
  resourceVersion : Option String := none
  selfLink : Option String := none
  uid : Option String := none
  deriving DecidableEq

namespace ObjectMeta

/-- Reads metadata; every item of a list of records first goes through `prepare`. -/
def read (prepare : Json → Json) (value : Json) : Decoded ObjectMeta := do
  let fields ← value.asFields
  return {
    annotations := ← fields.nullable "annotations" (Json.asDict Json.asText)
    creationTimestamp := ← fields.nullable "creationTimestamp" Json.asInstant
    deletionGracePeriodSeconds := ← fields.nullable "deletionGracePeriodSeconds" Json.asInt64
    deletionTimestamp := ← fields.nullable "deletionTimestamp" Json.asInstant
    finalizers := ← fields.nullable "finalizers" (Json.asList Json.asText)
    generateName := ← fields.nullable "generateName" Json.asText
    generation := ← fields.nullable "generation" Json.asInt64
    labels := ← fields.nullable "labels" (Json.asDict Json.asText)
    managedFields := ← fields.nullable "managedFields"
      (Json.asList fun item => ManagedFields.ofJson (prepare item))
    name := ← fields.nullable "name" Json.asText
    namespaceName := ← fields.nullable "namespace" Json.asText
    ownerReferences := ← fields.nullable "ownerReferences"
      (Json.asList fun item => OwnerReference.ofJson (prepare item))
    resourceVersion := ← fields.nullable "resourceVersion" Json.asText
    selfLink := ← fields.nullable "selfLink" Json.asText
    uid := ← fields.nullable "uid" Json.asText }

def ofJson (value : Json) : Decoded ObjectMeta := read id value

def toJson (m : ObjectMeta) : Json :=
  .ofSome [
    ("annotations", m.annotations.map .ofTexts),
    ("creationTimestamp", m.creationTimestamp.map fun t => .str t.text),
    ("deletionGracePeriodSeconds", m.deletionGracePeriodSeconds.map .int),
    ("deletionTimestamp", m.deletionTimestamp.map fun t => .str t.text),
    ("finalizers", m.finalizers.map .ofStrings),
    ("generateName", m.generateName.map .str),
    ("generation", m.generation.map .int),
    ("labels", m.labels.map .ofTexts),
    ("managedFields", m.managedFields.map fun list => .arr (list.map ManagedFields.toJson)),
    ("name", m.name.map .str),
    ("namespace", m.namespaceName.map .str),
    ("ownerReferences", m.ownerReferences.map fun list => .arr (list.map OwnerReference.toJson)),
    ("resourceVersion", m.resourceVersion.map .str),
    ("selfLink", m.selfLink.map .str),
    ("uid", m.uid.map .str)]

end ObjectMeta

end Admission
