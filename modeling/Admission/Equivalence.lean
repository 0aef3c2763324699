import Admission.Schema

/-!
# Resources that are the same under several names

Resources registered under one identity are the same logical resource, served under different
groups or versions.  A registration is for one subresource and says which kind the resource has
there.  The register is a record of registrations; what it says is read off the record:
the identity of a resource and the kind at a subresource are those of the latest registration, and
the members of an identity are all that ever joined it, in order of their names.
-/

namespace Admission

/-- One entry of the register. -/
structure Registration where
  identity : String
  resource : GroupVersionResource
  subresource : String
  kind : GroupVersionKind
  deriving DecidableEq, Repr

/-- All registrations, the latest first. -/
structure EquivalenceRegistry where
  registrations : List Registration
  deriving DecidableEq, Repr, Inhabited

namespace EquivalenceRegistry

def empty : EquivalenceRegistry := ⟨[]⟩

def register (registry : EquivalenceRegistry) (entry : Registration) : EquivalenceRegistry :=
  ⟨entry :: registry.registrations⟩

/-- Registers a resource under its own name, whatever its version. -/
def registerKindFor (registry : EquivalenceRegistry) (resource : GroupVersionResource)
    (subresource : String) (kind : GroupVersionKind) : EquivalenceRegistry :=
  registry.register ⟨s!"{resource.resource}.{resource.group}", resource, subresource, kind⟩

/-- The identity a resource was registered under last. -/
def identity? (registry : EquivalenceRegistry) (resource : GroupVersionResource) : Option String :=
  (registry.registrations.find? (·.resource = resource)).map (·.identity)

/-- The kind a resource has at a subresource. -/
def kind? (registry : EquivalenceRegistry) (resource : GroupVersionResource)
    (subresource : String) : Option GroupVersionKind :=
  (registry.registrations.find? fun r => r.resource = resource ∧ r.subresource = subresource).map
    (·.kind)

/-- Puts a resource at its place, once. -/
def insertResource (resource : GroupVersionResource) :
    List GroupVersionResource → List GroupVersionResource
  | [] => [resource]
  | r :: rest =>
    if resource.before r then resource :: r :: rest
    else if resource = r then r :: rest
    else r :: insertResource resource rest

/-- The resources that joined an identity for a subresource, ascending. -/
def members (registry : EquivalenceRegistry) (identity subresource : String) :
    List GroupVersionResource :=
  (registry.registrations.filter fun r => r.identity = identity ∧ r.subresource = subresource).foldr
    (fun r list => insertResource r.resource list) []

/-- The resources that are the same as this one for a subresource, itself among them. -/
def equivalents (registry : EquivalenceRegistry) (resource : GroupVersionResource)
    (subresource : String) : List GroupVersionResource :=
  match registry.identity? resource with
  | some identity => registry.members identity subresource
  | none => []

end EquivalenceRegistry

end Admission
