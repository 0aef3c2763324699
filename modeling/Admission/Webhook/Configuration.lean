import Admission.Object.Meta
import Admission.Webhook.Basic

/-!
# Webhook configurations

A configuration object holds an ordered list of webhooks of one kind.  Unknown fields are passed
over; what is there must be of the right form, also the parts that are not used.
-/

namespace Admission

/-- What a list item that is `null` stands for in a manifest: a record without fields. -/
def Json.nullAsEmpty : Json → Json
  | .null => .obj []
  | value => value

/-- A configuration object. -/
structure Configuration where
  kind : WebhookKind
  metadata : ObjectMeta
  webhooks : List Webhook
  deriving DecidableEq

namespace Configuration

/-- The API version of configuration objects. -/
def apiVersion : String := "admissionregistration.k8s.io/v1"

/-- The name of the kind of configuration objects. -/
def kindName : WebhookKind → String
  | .mutating => "MutatingWebhookConfiguration"
  | .validating => "ValidatingWebhookConfiguration"

/-- The name of the object, empty if it has none. -/
def name (c : Configuration) : String := c.metadata.name.getD ""

def serviceOfJson (value : Json) : Decoded ServiceReference := do
  let fields ← value.asFields
  return {
    name := ← fields.nullableD "name" "" Json.asText
    namespaceName := ← fields.nullableD "namespace" "" Json.asText
    path := ← fields.nullableD "path" "" Json.asText
    port := ← fields.nullableD "port" 443 Json.asInt32 }

/-- Reads how a webhook is reached. -/
def clientOfJson (webhook : String) (value : Json) : Decoded ClientConfig := do
  let fields ← value.asFields
  return {
    name := webhook
    url := ← fields.nullable "url" Json.asText
    service := ← fields.nullable "service" serviceOfJson
    caBundle := ← fields.nullableD "caBundle" [] Json.asBytes }

/-- Checks the form of a condition that is not used. -/
def checkCondition (value : Json) : Decoded Unit := do
  let fields ← value.asFields
  let _ ← fields.nullable "expression" Json.asText
  let _ ← fields.nullable "name" Json.asText

/-- Reads one webhook of a configuration; every item of a list of records first goes through
`prepare`. -/
def webhookOfJson (prepare : Json → Json) (kind : WebhookKind) (configuration : String)
    (index : Nat) (value : Json) : Decoded Webhook := do
  let fields ← value.asFields
  let name ← fields.nullableD "name" "" Json.asText
  let client ← fields.nullableD "clientConfig" { name := name } (clientOfJson name)
  let rules ← fields.nullableD "rules" [] (Json.asList fun item => Rule.ofJson (prepare item))
  let failurePolicy ← fields.nullable "failurePolicy" Json.asText
  let matchPolicy ← fields.nullable "matchPolicy" Json.asText
  let namespaceSelector ← fields.nullable "namespaceSelector" (LabelSelector.read prepare)
  let objectSelector ← fields.nullable "objectSelector" (LabelSelector.read prepare)
  let sideEffects ← fields.nullableD "sideEffects" "" Json.asText
  let timeoutSeconds ← fields.nullable "timeoutSeconds" Json.asInt32
  let reviewVersions ← fields.nullableD "admissionReviewVersions" [] (Json.asList Json.asText)
  let _ ← fields.nullable "matchConditions" (Json.asList fun item => checkCondition (prepare item))
  if kind = .mutating then
    let _ ← fields.nullable "reinvocationPolicy" Json.asText
  return {
    uid := s!"{configuration}/{name}/{index}"
    configuration := configuration
    name := name
    kind := kind
    rules := rules
    failurePolicy := .ofText failurePolicy
    matchPolicy := .ofText matchPolicy
    namespaceSelector := namespaceSelector
    objectSelector := objectSelector
    sideEffects := SideEffects.ofText? sideEffects
    timeout := Webhook.timeoutOfSeconds? timeoutSeconds
    reviewVersions := reviewVersions
    client := client }

/-- Reads webhooks in their order, numbering them from `index`. -/
def webhooksOfJson (prepare : Json → Json) (kind : WebhookKind) (configuration : String) :
    Nat → List Json → Decoded (List Webhook)
  | _, [] => .ok []
  | index, value :: rest => do
    let hook ← webhookOfJson prepare kind configuration index (prepare value)
    return hook :: (← webhooksOfJson prepare kind configuration (index + 1) rest)

/-- A field that, if it is there, must have one text. -/
def expectText (fields : Fields Json) (key wanted : String) : Decoded Unit := do
  if (← fields.defaulted key wanted Json.asText) = wanted then .ok ()
  else .error (.expected wanted)

/-- Reads a configuration object of a kind. -/
def read (prepare : Json → Json) (kind : WebhookKind) (value : Json) : Decoded Configuration := do
  let fields ← value.asFields
  expectText fields "apiVersion" apiVersion
  expectText fields "kind" (kindName kind)
  let metadata ← fields.nullableD "metadata" {} (ObjectMeta.read prepare)
  let items ← fields.nullableD "webhooks" [] (Json.asList .ok)
  let webhooks ← webhooksOfJson prepare kind (metadata.name.getD "") 0 items
  return ⟨kind, metadata, webhooks⟩

def ofJson (kind : WebhookKind) (value : Json) : Decoded Configuration := read id kind value

end Configuration

end Admission
