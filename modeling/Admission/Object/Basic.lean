import Admission.Object.Meta
import Admission.Schema

/-!
# Objects

An object of any kind: the kind it says it is of, its metadata, and all its other fields as they
came.  Reading drops and fills in some things, so writing what was read need not give back the
input: unknown metadata are gone, absent metadata are written, and a kind that is not stated by two
strings is lost.
-/

namespace Admission

/-- The kind an object says it is of. -/
structure TypeMeta where
  apiVersion : String
  kind : String
  deriving DecidableEq, Repr

/-- The statement of a kind. -/
def GroupVersionKind.typeMeta (gvk : GroupVersionKind) : TypeMeta := ⟨gvk.apiVersion, gvk.kind⟩

/-- An object of any kind. -/
structure Object where
  types : Option TypeMeta
  metadata : ObjectMeta
  /-- All fields besides kind and metadata. -/
  data : Dict Json
  deriving DecidableEq

namespace Object

/-- Takes the statement of the kind out of an object's fields.  The two fields are looked at in the
order of their keys, and looking stops at one that is not a string: what was looked at is gone, the
rest stays. -/
def takeTypes (fields : Dict Json) : Option TypeMeta × Dict Json :=
  match fields.get? "apiVersion", fields.get? "kind" with
  | some (.str apiVersion), some (.str kind) =>
    (some ⟨apiVersion, kind⟩, (fields.erase "apiVersion").erase "kind")
  | some (.str _), _ => (none, (fields.erase "apiVersion").erase "kind")
  | some _, _ => (none, fields.erase "apiVersion")
  | none, _ => (none, fields.erase "kind")

/-- Reads an object; only metadata may be missing, and then are empty. -/
def ofJson (value : Json) : Decoded Object := do
  let fields := Dict.ofFields (← value.asFields)
  let metadata ← fields.fields.defaulted "metadata" {} ObjectMeta.ofJson
  let (types, data) := takeTypes (fields.erase "metadata")
  return ⟨types, metadata, data⟩

/-- The fields an object is written with.  A field of its data counts more than its kind. -/
def fields (o : Object) : Dict Json :=
  let types := match o.types with
    | some t => [("apiVersion", Json.str t.apiVersion), ("kind", Json.str t.kind)]
    | none => []
  .ofFields (types ++ ("metadata", o.metadata.toJson) :: o.data.fields)

def toJson (o : Object) : Json := .ofDict o.fields

/-- The labels, none counting as no labels. -/
def labels (o : Object) : Dict String := o.metadata.labels.getD ∅

end Object

end Admission
