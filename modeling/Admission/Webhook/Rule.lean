import Admission.Operation
import Admission.Schema

/-!
# Rules

A rule names the requests a webhook wants to see: by operation, group, version, resource and scope,
each part being a list of names in which `*` stands for all.
-/

namespace Admission

/-- Which requests a webhook wants to see. -/
structure Rule where
  operations : List String
  apiGroups : List String
  apiVersions : List String
  /-- `resource` or `resource/subresource`, either part may be `*`. -/
  resources : List String
  /-- `Cluster` or `Namespaced`; none and `*` stand for both. -/
  scope : Option String
  deriving DecidableEq, Repr, Inhabited

/-- What a rule is held against: an operation on a resource within a namespace. -/
structure RuleInput where
  operation : Operation
  resource : GroupVersionResource
  subresource : String
  namespaceName : String
  deriving DecidableEq, Repr

/-- Whether the resource is `namespaces` of the core group. -/
def GroupVersionResource.isNamespaces (r : GroupVersionResource) : Bool :=
  r.group = "" && r.version = "v1" && r.resource = "namespaces"

namespace Rule

/-- Everything. -/
def wildcard : String := "*"

/-- Whether a list of names has the name or stands for all. -/
def covers (names : List String) (name : String) : Bool :=
  names.any fun n => n = wildcard || n = name

/-- The two parts of a resource entry, cut at the first slash. -/
def splitEntry (entry : String) : String × String :=
  let chars := entry.toList
  (String.ofList (chars.takeWhile (· ≠ '/')),
    String.ofList ((chars.dropWhile (· ≠ '/')).drop 1))

/-- Whether an entry of the resources covers the resource and the subresource. -/
def entryCovers (input : RuleInput) (entry : String) : Bool :=
  let (resource, subresource) := splitEntry entry
  (resource = wildcard || resource = input.resource.resource) &&
    (subresource = wildcard || subresource = input.subresource)

/-- Whether the scope admits the input; namespaces themselves are of the cluster. -/
def scopeCovers (rule : Rule) (input : RuleInput) : Bool :=
  match rule.scope with
  | none => true
  | some scope =>
    let inCluster := input.resource.isNamespaces || input.namespaceName = ""
    if scope = wildcard then true
    else if scope = "Namespaced" then !inCluster
    else if scope = "Cluster" then inCluster
    else false

/-- Whether the rule names the input. -/
def covered (rule : Rule) (input : RuleInput) : Bool :=
  rule.scopeCovers input && covers rule.operations input.operation.text &&
    covers rule.apiGroups input.resource.group && covers rule.apiVersions input.resource.version &&
    rule.resources.any (entryCovers input)

def ofJson (value : Json) : Decoded Rule := do
  let fields ← value.asFields
  let texts := Json.asList Json.asText
  return {
    operations := ← fields.nullableD "operations" [] texts
    apiGroups := ← fields.nullableD "apiGroups" [] texts
    apiVersions := ← fields.nullableD "apiVersions" [] texts
    resources := ← fields.nullableD "resources" [] texts
    scope := ← fields.nullable "scope" Json.asText }

def toJson (rule : Rule) : Json :=
  .obj [("apiGroups", .ofStrings rule.apiGroups), ("apiVersions", .ofStrings rule.apiVersions),
    ("operations", .ofStrings rule.operations), ("resources", .ofStrings rule.resources),
    ("scope", (rule.scope.map Json.str).getD .null)]

end Rule

end Admission
