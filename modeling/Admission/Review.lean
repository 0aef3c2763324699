import Admission.Request
import Admission.Status
import Admission.Webhook.Selection
import Admission.Json.Reader

/-!
# Reviews

The message that goes to a webhook and comes back from it.  Every optional field that is absent, and
every text that is empty, is left out when a review is written and has that default when one is
read; a value that is there and `null` reads as absent.

`Review.verify` says when an answer counts: it must be there, be for the same request, be of the
version that is spoken here, and carry a patch only in the one known format and only from a webhook
that may change the object.
-/

namespace Admission

/-- What a webhook is asked. -/
structure ReviewRequest where
  uid : String
  kind : GroupVersionKind
  resource : GroupVersionResource
  subresource : String := ""
  /-- The kind of the request itself, which may differ from the one the webhook sees. -/
  requestKind : Option GroupVersionKind := none
  requestResource : Option GroupVersionResource := none
  requestSubresource : String := ""
  name : String := ""
  namespaceName : String := ""
  operation : Operation
  userInfo : UserInfo := {}
  object : Option Json := none
  oldObject : Option Json := none
  dryRun : Option Bool := none
  options : Option Json := none
  deriving DecidableEq

namespace ReviewRequest

/-- What is wanted of a request: three of its fields may hold any value. -/
def fields : List (String × Json.Shape) :=
  let kind : Json.Shape := .flat ["group", "version", "kind"]
  let resource : Json.Shape := .flat ["group", "version", "resource"]
  [("uid", .plain), ("kind", kind), ("resource", resource), ("subResource", .plain),
    ("requestKind", kind), ("requestResource", resource), ("requestSubResource", .plain),
    ("name", .plain), ("namespace", .plain), ("operation", .plain),
    ("userInfo", .flat ["username", "uid", "groups", "extra"]), ("object", .any),
    ("oldObject", .any), ("dryRun", .plain), ("options", .any)]

def fieldNames : List String := fields.map (·.1)

def ofJson (value : Json) : Decoded ReviewRequest := do
  let fields ← value.asRecord fieldNames
  return {
    uid := ← fields.required "uid" Json.asText
    kind := ← fields.required "kind" GroupVersionKind.ofJson
    resource := ← fields.required "resource" GroupVersionResource.ofJson
    subresource := ← fields.defaulted "subResource" "" Json.asText
    requestKind := ← fields.nullable "requestKind" GroupVersionKind.ofJson
    requestResource := ← fields.nullable "requestResource" GroupVersionResource.ofJson
    requestSubresource := ← fields.defaulted "requestSubResource" "" Json.asText
    name := ← fields.defaulted "name" "" Json.asText
    namespaceName := ← fields.defaulted "namespace" "" Json.asText
    operation := ← fields.required "operation" Operation.ofJson
    userInfo := ← fields.defaulted "userInfo" {} UserInfo.ofJson
    object := ← fields.nullable "object" .ok
    oldObject := ← fields.nullable "oldObject" .ok
    dryRun := ← fields.nullable "dryRun" Json.asBool
    options := ← fields.nullable "options" .ok }

def toJson (r : ReviewRequest) : Json :=
  .ofSome [
    ("dryRun", r.dryRun.map .bool),
    ("kind", some r.kind.toJson),
    ("name", Json.nonempty r.name),
    ("namespace", Json.nonempty r.namespaceName),
    ("object", r.object),
    ("oldObject", r.oldObject),
    ("operation", some (.str r.operation.text)),
    ("options", r.options),
    ("requestKind", r.requestKind.map GroupVersionKind.toJson),
    ("requestResource", r.requestResource.map GroupVersionResource.toJson),
    ("requestSubResource", Json.nonempty r.requestSubresource),
    ("resource", some r.resource.toJson),
    ("subResource", Json.nonempty r.subresource),
    ("uid", some (.str r.uid)),
    ("userInfo", some r.userInfo.toJson)]

end ReviewRequest

/-- What a webhook answers. -/
structure ReviewResponse where
  uid : String := ""
  allowed : Bool := false
  /-- Why the request is refused. -/
  result : Option Status := none
  patch : Option (List UInt8) := none
  patchType : Option String := none
  auditAnnotations : Option (Dict String) := none
  warnings : Option (List String) := none
  deriving DecidableEq

namespace ReviewResponse

/-- What is wanted of an answer. -/
def fields : List (String × Json.Shape) :=
  [("uid", .plain), ("allowed", .plain),
    ("result", .flat ["status", "message", "reason", "code"]), ("patch", .plain),
    ("patchType", .plain), ("auditAnnotations", .plain), ("warnings", .plain)]

def fieldNames : List String := fields.map (·.1)

def ofJson (value : Json) : Decoded ReviewResponse := do
  let fields ← value.asRecord fieldNames
  return {
    uid := ← fields.defaulted "uid" "" Json.asText
    allowed := ← fields.defaulted "allowed" false Json.asBool
    result := ← fields.nullable "result" Status.ofJson
    patch := ← fields.nullable "patch" Json.asBytes
    patchType := ← fields.nullable "patchType" Json.asText
    auditAnnotations := ← fields.nullable "auditAnnotations" (Json.asDict Json.asText)
    warnings := ← fields.nullable "warnings" (Json.asList Json.asText) }

def toJson (r : ReviewResponse) : Json :=
  .ofSome [
    ("allowed", some (.bool r.allowed)),
    ("auditAnnotations", r.auditAnnotations.map .ofTexts),
    ("patch", r.patch.map fun bytes => .str (Base64.encode bytes)),
    ("patchType", r.patchType.map .str),
    ("result", r.result.map Status.toJson),
    ("uid", some (.str r.uid)),
    ("warnings", r.warnings.map .ofStrings)]

/-- The patch, none counting as empty. -/
def patchBytes (r : ReviewResponse) : List UInt8 := r.patch.getD []

end ReviewResponse

/-- A message to or from a webhook. -/
structure Review where
  apiVersion : String := ""
  kind : String := ""
  request : Option ReviewRequest := none
  response : Option ReviewResponse := none
  deriving DecidableEq

/-- Why an answer does not count. -/
inductive ResponseError where
  | absent
  | uidMismatch (expected got : String)
  | unexpectedKind (apiVersion kind : String)
  /-- A patch of an unknown type. -/
  | patchType (got : String)
  | validatingPatch
  deriving DecidableEq, Repr

def ResponseError.message : ResponseError → String
  | .absent => "webhook response was absent"
  | .uidMismatch expected got =>
    s!"expected response.uid={Text.quoted expected}, got {Text.quoted got}"
  | .unexpectedKind apiVersion kind =>
    "expected webhook response of admission.k8s.io/v1, Kind=AdmissionReview, got " ++
      s!"{apiVersion}, Kind={kind}"
  | .patchType got =>
    s!"expected patchType=\"JSONPatch\" if patch is set, got {Text.quoted got}"
  | .validatingPatch => "validating webhook may not return a patch or patchType"

namespace Review

/-- The API version of reviews. -/
def version : String := "admission.k8s.io/v1"

/-- The name of the kind of reviews. -/
def kindName : String := "AdmissionReview"

/-- The one known format of patches. -/
def jsonPatch : String := "JSONPatch"

/-- What is wanted of a review. -/
def fields : List (String × Json.Shape) :=
  [("apiVersion", .plain), ("kind", .plain), ("request", .record ReviewRequest.fields),
    ("response", .record ReviewResponse.fields)]

def fieldNames : List String := fields.map (·.1)

def ofJson (value : Json) : Decoded Review := do
  let fields ← value.asRecord fieldNames
  return {
    apiVersion := ← fields.defaulted "apiVersion" "" Json.asText
    kind := ← fields.defaulted "kind" "" Json.asText
    request := ← fields.nullable "request" ReviewRequest.ofJson
    response := ← fields.nullable "response" ReviewResponse.ofJson }

def toJson (r : Review) : Json :=
  .ofSome [("apiVersion", some (.str r.apiVersion)), ("kind", some (.str r.kind)),
    ("request", r.request.map ReviewRequest.toJson),
    ("response", r.response.map ReviewResponse.toJson)]

/-- Reads a review from characters.  A known field may not be repeated, and what stands under other
names is not read. -/
def ofChars (chars : List (Option Char)) : Decoded Review :=
  match Json.readChars? (.record fields) chars with
  | some value => ofJson value
  | none => .error .malformed

/-- Reads a review from text. -/
def ofText (text : String) : Decoded Review := ofChars (Json.letters text)

/-- The review that asks one webhook: with the resource and the kind it is to see, and the request's
own beside them. -/
def ask (request : Request) (invocation : Invocation) (object oldObject : Option Object) :
    Review where
  apiVersion := version
  kind := kindName
  request := some {
    uid := request.uid
    kind := invocation.kind
    resource := invocation.resource
    subresource := invocation.subresource
    requestKind := some request.kind
    requestResource := some request.resource
    requestSubresource := request.subresource
    name := request.name
    namespaceName := request.namespaceName
    operation := request.operation
    userInfo := request.userInfo
    object := object.map Object.toJson
    oldObject := oldObject.map Object.toJson
    dryRun := some request.dryRun
    options := request.options }

/-- The answer in a review, if it counts for the request with a uid and a kind of webhook. -/
def verify (uid : String) (kind : WebhookKind) (review : Review) :
    Except ResponseError ReviewResponse :=
  match review.response with
  | none => .error .absent
  | some response =>
    let patchType := response.patchType.getD ""
    let hasPatch := response.patchBytes ≠ []
    if response.uid ≠ uid then .error (.uidMismatch uid response.uid)
    else if review.apiVersion ≠ version ∨ review.kind ≠ kindName then
      .error (.unexpectedKind review.apiVersion review.kind)
    else if hasPatch ∧ patchType ≠ jsonPatch then .error (.patchType patchType)
    else if kind = .validating ∧ (hasPatch ∨ patchType ≠ "") then .error .validatingPatch
    else .ok response

end Review

end Admission
