import Admission.Object.Conversion
import Admission.Request
import Admission.Status

/-!
# The objects of a request in one kind

A webhook sees the objects in the kind it asked for.  They are converted from one kind to the next
as webhooks of different kinds follow each other, so that patches made in between are kept.
-/

namespace Admission

/-- The objects of a request in one kind. -/
structure Versioned where
  kind : GroupVersionKind
  object : Option Object
  oldObject : Option Object
  /-- Whether a webhook has patched the object. -/
  dirty : Bool
  deriving DecidableEq

namespace Versioned

/-- An object, if there is one, in a kind; failing is an internal error. -/
def convertObject (convert : Converter) (kind : GroupVersionKind) :
    Option Object → Except StatusError (Option Object)
  | none => .ok none
  | some object =>
    match convert object kind with
    | .ok object => .ok (some object)
    | .error e => .error (.internal e.message)

/-- The same objects in another kind; nothing is converted to the kind they have. -/
def convertTo (convert : Converter) (kind : GroupVersionKind) (v : Versioned) :
    Except StatusError Versioned :=
  if v.kind = kind then .ok v
  else do
    let object ← convertObject convert kind v.object
    let oldObject ← convertObject convert kind v.oldObject
    return { v with kind := kind, object := object, oldObject := oldObject }

/-- The objects of a request as they were submitted. -/
def submitted (request : Request) : Versioned :=
  ⟨request.kind, request.object, request.oldObject, false⟩

/-- The objects of a request in a kind. -/
def ofRequest (convert : Converter) (request : Request) (kind : GroupVersionKind) :
    Except StatusError Versioned :=
  (submitted request).convertTo convert kind

end Versioned

end Admission
