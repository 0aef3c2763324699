import Admission.Equivalence
import Admission.Request
import Admission.Status
import Admission.Webhook.Basic

/-!
# Which webhooks a request goes to

A webhook is called for a request if both of its selectors accept it and one of its rules names it.
The rules are held against the request's own resource first.  If none names it and the webhook
takes equivalents, they are held against the equivalent resources: the first rule that names one of
them decides, and the webhook then sees the request as one for that resource.  A selector that errs
is reported only for a webhook whose rules name the request.
-/

namespace Admission

/-- A webhook to call, and the resource and kind it is to see. -/
structure Invocation where
  webhook : Webhook
  resource : GroupVersionResource
  subresource : String
  kind : GroupVersionKind
  deriving DecidableEq

namespace Webhook

/-- The labels that the namespace selector is held against.  For a namespace that is created or
updated they are those of the object itself; otherwise those of the namespace the request is in, or
of the namespace it names. -/
def governingLabels (request : Request) (namespaces : NamespaceLister) :
    Except StatusError Labels :=
  let forNamespace := request.resource.isNamespaces
  if forNamespace ∧ request.subresource = "" ∧
      (request.operation = .create ∨ request.operation = .update) then
    .ok ((request.object.map Object.labels).getD ∅)
  else
    let name := if forNamespace ∧ request.namespaceName = "" then request.name
      else request.namespaceName
    match namespaces name with
    | some labels => .ok labels
    | none => .error (.notFound "namespaces" name)

/-- Whether a selector selects the labels, its own faults being internal errors. -/
def selectLabels (selector : LabelSelector) (labels : Labels) : Except StatusError Bool :=
  match selector.selects labels with
  | .ok b => .ok b
  | .error e => .error (.internal e.message)

/-- The selector, if there is one and it has conditions. -/
def effective? (selector : Option LabelSelector) : Option LabelSelector :=
  selector.filter fun s => !s.isEmpty

/-- Whether the namespace selector accepts the request.  Requests outside namespaces are accepted,
except those for namespaces themselves. -/
def namespaceAccepts (hook : Webhook) (request : Request) (namespaces : NamespaceLister) :
    Except StatusError Bool :=
  if request.namespaceName = "" ∧ !request.resource.isNamespaces then .ok true
  else
    match effective? hook.namespaceSelector with
    | none => .ok true
    | some selector => do selectLabels selector (← governingLabels request namespaces)

/-- Whether an object is there and has labels that the selector selects. -/
def selectObject (selector : LabelSelector) (object : Option Object) : Except StatusError Bool :=
  match object with
  | some object => selectLabels selector object.labels
  | none => .ok false

/-- Whether the object selector accepts the object or else the old object. -/
def objectAccepts (hook : Webhook) (request : Request) : Except StatusError Bool :=
  match effective? hook.objectSelector with
  | none => .ok true
  | some selector => do
    if ← selectObject selector request.object then .ok true
    else selectObject selector request.oldObject

/-- The request as rules see it, with a resource in place of its own. -/
def ruleInput (request : Request) (resource : GroupVersionResource) : RuleInput :=
  ⟨request.operation, resource, request.subresource, request.namespaceName⟩

/-- The first equivalent resource that a rule names, by rules first and resources second. -/
def namedEquivalent? (hook : Webhook) (request : Request) (registry : EquivalenceRegistry) :
    Option GroupVersionResource :=
  let equivalents := (registry.equivalents request.resource request.subresource).filter
    (· ≠ request.resource)
  hook.rules.findSome? fun rule =>
    equivalents.find? fun resource => rule.covered (ruleInput request resource)

/-- How the rules name the request, if they do.  An equivalent resource must have a known kind. -/
def byRules (hook : Webhook) (request : Request) (registry : EquivalenceRegistry) :
    Except StatusError (Option Invocation) :=
  if hook.rules.any (·.covered (ruleInput request request.resource)) then
    .ok (some ⟨hook, request.resource, request.subresource, request.kind⟩)
  else if hook.matchPolicy = .exact then .ok none
  else
    match hook.namedEquivalent? request registry with
    | none => .ok none
    | some resource =>
      match (registry.kind? resource request.subresource).filter (fun kind => !kind.isEmpty) with
      | some kind => .ok (some ⟨hook, resource, request.subresource, kind⟩)
      | none => .error (.internal s!"unable to convert to {resource.text}: unknown kind")

/-- Whether a selector has answered, and with no. -/
def rejects : Except StatusError Bool → Bool
  | .ok false => true
  | _ => false

/-- Whether and how a webhook is called for a request. -/
def selectFor (hook : Webhook) (request : Request) (registry : EquivalenceRegistry)
    (namespaces : NamespaceLister) : Except StatusError (Option Invocation) :=
  let byNamespace := hook.namespaceAccepts request namespaces
  let byObject := hook.objectAccepts request
  if rejects byNamespace || rejects byObject then .ok none
  else do
    match ← hook.byRules request registry with
    | none => .ok none
    | some invocation =>
      let _ ← byNamespace
      let _ ← byObject
      .ok (some invocation)

end Webhook

end Admission
