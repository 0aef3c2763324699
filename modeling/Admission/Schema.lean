import Admission.Json.Decode

/-!
# Names of resources and kinds

A resource or a kind is named within a version of a group; the core group has the empty name.
-/

namespace Admission

/-- A resource, whatever its version. -/
structure GroupResource where
  group : String
  resource : String
  deriving DecidableEq, Repr, Inhabited

/-- `resource.group`, or the resource alone for the core group. -/
def GroupResource.text (gr : GroupResource) : String :=
  if gr.group = "" then gr.resource else s!"{gr.resource}.{gr.group}"

/-- A resource in one version. -/
structure GroupVersionResource where
  group : String
  version : String
  resource : String
  deriving DecidableEq, Repr, Inhabited

namespace GroupVersionResource

def groupResource (gvr : GroupVersionResource) : GroupResource := ⟨gvr.group, gvr.resource⟩

/-- `group/version/resource`, without the group for the core group. -/
def text (gvr : GroupVersionResource) : String :=
  if gvr.group = "" then s!"{gvr.version}/{gvr.resource}"
  else s!"{gvr.group}/{gvr.version}/{gvr.resource}"

/-- The order by group, then version, then resource. -/
def before (a b : GroupVersionResource) : Bool :=
  a.group < b.group ||
    (a.group = b.group &&
      (a.version < b.version || (a.version = b.version && a.resource < b.resource)))

def ofJson (value : Json) : Decoded GroupVersionResource := do
  let fields ← value.asRecord ["group", "version", "resource"]
  return ⟨← fields.required "group" Json.asText, ← fields.required "version" Json.asText,
    ← fields.required "resource" Json.asText⟩

def toJson (gvr : GroupVersionResource) : Json :=
  .obj [("group", .str gvr.group), ("resource", .str gvr.resource), ("version", .str gvr.version)]

end GroupVersionResource

/-- A kind in one version. -/
structure GroupVersionKind where
  group : String
  version : String
  kind : String
  deriving DecidableEq, Repr, Inhabited

namespace GroupVersionKind

/-- Whether all three parts are empty. -/
def isEmpty (gvk : GroupVersionKind) : Bool := gvk.group = "" && gvk.version = "" && gvk.kind = ""

/-- The `apiVersion` that objects of the kind carry. -/
def apiVersion (gvk : GroupVersionKind) : String :=
  if gvk.group = "" then gvk.version else s!"{gvk.group}/{gvk.version}"

def text (gvk : GroupVersionKind) : String := s!"{gvk.apiVersion}, Kind={gvk.kind}"

def ofJson (value : Json) : Decoded GroupVersionKind := do
  let fields ← value.asRecord ["group", "version", "kind"]
  return ⟨← fields.required "group" Json.asText, ← fields.required "version" Json.asText,
    ← fields.required "kind" Json.asText⟩

def toJson (gvk : GroupVersionKind) : Json :=
  .obj [("group", .str gvk.group), ("kind", .str gvk.kind), ("version", .str gvk.version)]

end GroupVersionKind

end Admission
