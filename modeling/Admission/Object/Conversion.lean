import Admission.Object.Basic

/-!
# Objects in another kind

A `Converter` gives an object in a wanted kind.  `Converter.relabel` restates what the object says
of its kind and leaves everything else alone, which is right for kinds that agree on their fields.
-/

namespace Admission

/-- Why an object has no form in a kind. -/
structure ConversionError where
  target : GroupVersionKind
  reason : String
  deriving DecidableEq, Repr

def ConversionError.message (e : ConversionError) : String :=
  s!"unable to convert object to {e.target.text}: {e.reason}"

/-- Gives an object in the wanted kind. -/
abbrev Converter := Object → GroupVersionKind → Except ConversionError Object

/-- Whether a kind has a name and a version. -/
def GroupVersionKind.isComplete (gvk : GroupVersionKind) : Bool := gvk.kind ≠ "" && gvk.version ≠ ""

/-- The object with another statement of its kind. -/
def Object.withKind (o : Object) (kind : GroupVersionKind) : Object :=
  { o with types := some kind.typeMeta }

/-- Replaces the statement of the kind; a kind without name or version is refused. -/
def Converter.relabel : Converter := fun object kind =>
  if kind.isComplete then .ok (object.withKind kind)
  else .error ⟨kind, "target kind is incomplete"⟩

end Admission
