import Admission.Json.Diff
import Admission.Plugin

/-!
# The gateway

The gateway answers reviews that a server sends it: it takes the request in a review through one
admission step and answers with a review.  A refusal carries the status of the error; an admitted
request that a mutating step has changed carries the patch from the object as it came to the object
as it was left.
-/

namespace Admission

/-- The step a review is sent to. -/
inductive GatewayStep where
  | validate
  | mutate
  deriving DecidableEq, Repr

def GatewayStep.text : GatewayStep → String
  | .validate => "validate"
  | .mutate => "mutate"

/-- The request in a review that came in, and the kind of the review. -/
structure Inbound where
  types : TypeMeta
  request : Option Request
  deriving DecidableEq

namespace Inbound

/-- The resource of a request, which may also name its API version. -/
def resourceOfJson (value : Json) : Decoded GroupVersionResource := do
  let fields ← value.asRecord ["group", "version", "resource", "api_version"]
  let _ ← fields.defaulted "api_version" "" Json.asText
  GroupVersionResource.ofJson (.obj (fields.erase "api_version"))

/-- Reads the request of a review. -/
def requestOfJson (value : Json) : Decoded Request := do
  let fields ← value.asRecord ReviewRequest.fieldNames
  let _ ← fields.nullable "requestKind" GroupVersionKind.ofJson
  let _ ← fields.nullable "requestResource" resourceOfJson
  let _ ← fields.nullable "requestSubResource" Json.asText
  return {
    uid := ← fields.required "uid" Json.asText
    kind := ← fields.required "kind" GroupVersionKind.ofJson
    resource := ← fields.required "resource" resourceOfJson
    operation := ← fields.required "operation" Operation.ofJson
    name := ← fields.defaulted "name" "" Json.asText
    namespaceName := (← fields.nullable "namespace" Json.asText).getD ""
    subresource := (← fields.nullable "subResource" Json.asText).getD ""
    dryRun := ← fields.defaulted "dryRun" false Json.asBool
    object := ← fields.nullable "object" Object.ofJson
    oldObject := ← fields.nullable "oldObject" Object.ofJson
    options := ← fields.nullable "options" .ok
    userInfo := ← fields.required "userInfo" UserInfo.ofJson }

/-- Checks the form of a status in an answer, which is not used. -/
def checkStatus (value : Json) : Decoded Unit := do
  let fields ← value.asRecord ["metadata", "status", "code", "message", "reason", "details"]
  let _ ← fields.nullable "status" fun value => do
    let text ← value.asText
    if text = "Success" ∨ text = "Failure" then return
    else .error (.expected "a status")
  let code ← fields.defaulted "code" 0 Json.asInt64
  if code < 0 ∨ 65535 < code then .error (.expected "a number in range") else
  let _ ← fields.defaulted "message" "" Json.asText
  let _ ← fields.defaulted "reason" "" Json.asText

/-- A byte. -/
def asByte (value : Json) : Decoded UInt8 := do
  let n ← value.asInt64
  if 0 ≤ n ∧ n < 256 then .ok (UInt8.ofNat n.toNat) else .error (.expected "a byte")

/-- Checks the form of an answer in a review that came in, which is not used. -/
def checkResponse (value : Json) : Decoded Unit := do
  let fields ← value.asRecord ["uid", "allowed", "status", "patch", "patchType",
    "auditAnnotations", "warnings"]
  let _ ← fields.required "uid" Json.asText
  let _ ← fields.required "allowed" Json.asBool
  fields.required "status" checkStatus
  let _ ← fields.nullable "patch" (Json.asList asByte)
  let _ ← fields.nullable "patchType" fun value => do
    if (← value.asText) = Review.jsonPatch then return else .error (.expected Review.jsonPatch)
  let _ ← fields.defaulted "auditAnnotations" ∅ (Json.asDict Json.asText)
  let _ ← fields.nullable "warnings" (Json.asList Json.asText)

/-- Reads a review that came in. -/
def ofJson (value : Json) : Decoded Inbound := do
  let fields ← value.asFields
  let apiVersion ← fields.required "apiVersion" Json.asText
  let kind ← fields.required "kind" Json.asText
  let request ← fields.nullable "request" requestOfJson
  let _ ← fields.nullable "response" checkResponse
  return ⟨⟨apiVersion, kind⟩, request⟩

end Inbound

/-- The two steps of admission. -/
structure Gateway (σ : Type) where
  mutating : Plugin σ
  validating : Plugin σ

/-- An answer of the gateway and what is left behind. -/
structure Answered (σ : Type) where
  review : Json
  metrics : Metrics
  reports : List CallReport
  world : σ

namespace Gateway

/-- A review that answers. -/
def reviewOf (types : TypeMeta) (response : List (String × Option Json)) : Json :=
  .obj [("apiVersion", .str types.apiVersion), ("kind", .str types.kind),
    ("response", .ofSome response)]

/-- The answer to a body that holds no request. -/
def invalid (message : String) : Json :=
  reviewOf ⟨Review.version, Review.kindName⟩ [("allowed", some (.bool false)),
    ("status", some (.obj [("message", .str message), ("reason", .str "InvalidRequest"),
      ("status", .str Status.failure)])), ("uid", some (.str ""))]

/-- The patch from the object as it came to the object as it was left, if they are written
differently. -/
def patchBetween (submitted admitted : Option Object) : Option Patch :=
  match submitted, admitted with
  | some before, some after =>
    match Json.diff before.toJson after.toJson with
    | [] => none
    | patch => some patch
  | _, _ => none

/-- The bytes of a patch, written as numbers. -/
def patchJson (patch : Patch) : Json :=
  .arr ((Utf8.encode patch.toJson.write).map fun b => .int b.toNat)

/-- The answer to a request, after a step of admission. -/
def answerOf (types : TypeMeta) (submitted : Request) {σ : Type} (after : Dispatched σ) : Json :=
  let record := after.tally.record
  let patch := match after.verdict with
    | .ok () => patchBetween submitted.object after.request.object
    | .error _ => none
  reviewOf types [
    ("allowed", some (.bool after.verdict.isOk)),
    ("auditAnnotations",
      if record.annotations.isEmpty then none else some (.ofTexts record.annotations)),
    ("patch", patch.map patchJson),
    ("patchType", patch.map fun _ => .str Review.jsonPatch),
    ("status", some (match after.verdict with
      | .ok () => .obj []
      | .error e => e.status.toJson)),
    ("uid", some (.str submitted.uid)),
    ("warnings", if record.warnings = [] then none else some (.ofStrings record.warnings))]

variable {σ : Type}

/-- Answers a body that was sent to a step. -/
def handle (gateway : Gateway σ) (step : GatewayStep) (body : Json) (metrics : Metrics)
    (world : σ) : Answered σ :=
  match Inbound.ofJson body with
  | .error e => ⟨invalid s!"failed to deserialize request: {e.message}", metrics, [], world⟩
  | .ok ⟨_, none⟩ => ⟨invalid "missing request field in AdmissionReview", metrics, [], world⟩
  | .ok ⟨types, some request⟩ =>
    let metrics := metrics.observeRequest
      ⟨request.operation.text, request.resource.resource, step.text⟩
    let plugin := match step with
      | .mutate => gateway.mutating
      | .validate => gateway.validating
    let after := plugin.handle request ⟨.empty, metrics, []⟩ world
    ⟨answerOf types request after,
      after.tally.metrics.observeResponse ⟨after.verdict.isOk, step.text⟩, after.reports,
      after.world⟩

end Gateway

/-- What is known of the health of the gateway. -/
structure Health where
  /-- Whether reviews can be received. -/
  serving : Bool
  /-- Whether the webhooks of each source are known. -/
  synced : List Bool
  deriving DecidableEq, Repr

namespace Health

def isReady (h : Health) : Bool := h.serving && h.synced.all id

/-- The answer to whether the program runs. -/
def healthz : String := "ok"

/-- The answer to whether it is ready: a status and a text. -/
def readyz (h : Health) : Nat × String := if h.isReady then (200, "ok") else (503, "not ready")

end Health

end Admission
