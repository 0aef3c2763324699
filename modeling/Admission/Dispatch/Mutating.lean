import Admission.Dispatch.Call
import Admission.Dispatch.Policy
import Admission.Json.Patch
import Admission.Json.Writer
import Admission.Text.Utf8

/-!
# Mutating webhooks

Mutating webhooks are called one after another, each seeing the object as the ones before it have
left it.  The request itself is changed only at the end, and only if all went well.

A patch is applied to the object as it was sent, except that metadata maps that were absent are there
and empty while it is applied, since patches like to put keys into them; those that are still empty
afterwards are taken away again.
-/

namespace Admission

/-- What is known of the kinds of objects: how to convert between them, what to fill in, and which
resources are equivalent. -/
structure Scheme where
  convert : Converter
  applyDefaults : Object → Object
  registry : EquivalenceRegistry

namespace Mutation

/-- The metadata maps that are left out when empty. -/
def metadataMaps : List String := ["labels", "annotations"]

/-- A document with changed metadata; one without metadata, or with metadata that are no object, is
left alone. -/
def modifyMetadata (change : Fields Json → Fields Json) (document : Json) : Json :=
  match document with
  | .obj fields =>
    match Fields.get? "metadata" fields with
    | some (.obj metadata) => .obj (Fields.insert "metadata" (.obj (change metadata)) fields)
    | _ => .obj fields
  | document => document

/-- The metadata maps that a document with metadata lacks. -/
def absentMaps (document : Json) : List String :=
  match document.field? "metadata" with
  | some (.obj metadata) => metadataMaps.filter fun key => (Fields.get? key metadata).isNone
  | _ => []

/-- Puts empty maps under keys of the metadata. -/
def fillMaps (keys : List String) (document : Json) : Json :=
  modifyMetadata (fun metadata => keys.foldl (fun m key => m.insert key (.obj [])) metadata) document

/-- Takes the maps under keys of the metadata away if they are empty. -/
def pruneMaps (keys : List String) (document : Json) : Json :=
  modifyMetadata (fun metadata =>
    keys.foldl (fun m key => if m.get? key = some (.obj []) then m.erase key else m) metadata)
    document

/-- Applies a patch to the object as it was sent. -/
def patchObject (patch : Patch) (object : Object) : Except StatusError Object :=
  let sent := object.toJson
  let absent := absentMaps sent
  match patch.apply (fillMaps absent sent) with
  | .error e => .error (.internal e.message)
  | .ok document =>
    match Object.ofJson (pruneMaps absent document) with
    | .error e => .error (.internal e.message)
    | .ok object => .ok object

/-- The patch in an answer; empty if there is none. -/
def patchOf (response : ReviewResponse) : Except StatusError Patch :=
  if response.patchBytes = [] then .ok []
  else
    match Utf8.decode? response.patchBytes with
    | none => .error (.internal DecodeError.malformed.message)
    | some text =>
      match Patch.ofText text with
      | .ok patch => .ok patch
      | .error e => .error (.internal e.message)

/-- The objects after a patch that is not empty. -/
def patched (scheme : Scheme) (webhook : String) (patch : Patch) (objects : Versioned) :
    Except StatusError Versioned :=
  match objects.object with
  | none => .error (.internal (s!"admission webhook \"{webhook}\" attempted to modify the object, " ++
      "which is not supported for this operation"))
  | some object => do
    let object ← patchObject patch object
    return { objects with object := some (scheme.applyDefaults object), dirty := true }

/-- The objects after an answer that counts, and whether it changed them. -/
def afterResponse (scheme : Scheme) (webhook : String) (response : ReviewResponse)
    (objects : Versioned) : Except HookFailure (Bool × Versioned) :=
  if response.allowed then
    match patchOf response with
    | .error e => .error (.status e)
    | .ok [] => .ok (false, objects)
    | .ok patch =>
      match patched scheme webhook patch objects with
      | .error e => .error (.status e)
      | .ok objects => .ok (true, objects)
  else .error (.rejected (.webhookDenied webhook response.result))

/-- The start of the key of the annotation that every webhook that went well leaves. -/
def annotationStart : String := "mutation.webhook.admission.k8s.io"

/-- The value of that annotation: which webhook it was and whether it changed the object. -/
def annotationValue (hook : Webhook) (mutated : Bool) : String :=
  (Json.obj [("configuration", .str hook.configuration), ("webhook", .str hook.name),
    ("mutated", .bool mutated)]).write

end Mutation

/-- The outcome of a dispatch. -/
structure Dispatched (σ : Type) where
  verdict : Except StatusError Unit
  /-- The request afterwards. -/
  request : Request
  tally : Tally
  /-- The calls, in the order of the webhooks. -/
  reports : List CallReport
  world : σ

namespace MutatingDispatch

variable {σ : Type}

/-- The state between two webhooks. -/
structure Run (σ : Type) where
  /-- The objects in the kind of the last webhook; none before the first. -/
  objects : Option Versioned
  tally : Tally
  reports : List CallReport
  world : σ

/-- The objects for a webhook: converted from the last kind, or for the first webhook from the
request. -/
def objectsFor (scheme : Scheme) (request : Request) (kind : GroupVersionKind)
    (objects : Option Versioned) : Except StatusError Versioned :=
  match objects with
  | some objects => objects.convertTo scheme.convert kind
  | none => Versioned.ofRequest scheme.convert request kind

/-- Calls the webhook at a position.  Gives the state afterwards, and the error that ends the request
if there is one. -/
def step (caller : Caller σ) (scheme : Scheme) (request : Request) (index : Nat)
    (invocation : Invocation) (run : Run σ) : Option StatusError × Run σ :=
  match objectsFor scheme request invocation.kind run.objects with
  | .error e => (some e, run)
  | .ok objects =>
    let hook := invocation.webhook
    let (report, world) := caller.call request invocation objects run.world
    let tally := Effect.applyAll run.tally (report.effects hook request.operation)
    let reports := run.reports ++ [report]
    match report.outcome.bind fun response =>
        Mutation.afterResponse scheme hook.name response objects with
    | .ok (mutated, objects) =>
      let note := Effect.annotate (annotationKey Mutation.annotationStart index)
        (Mutation.annotationValue hook mutated)
      (none, ⟨some objects, note.apply tally, reports, world⟩)
    | .error failure =>
      let (decision, effects) := Policy.evaluate hook index request.operation failure
      let run : Run σ := ⟨some objects, Effect.applyAll tally effects, reports, world⟩
      match decision with
      | .ignore => (none, run)
      | .abort e => (some e, run)

/-- Calls webhooks from a position on until one ends the request. -/
def steps (caller : Caller σ) (scheme : Scheme) (request : Request) (index : Nat) :
    List Invocation → Run σ → Option StatusError × Run σ
  | [], run => (none, run)
  | invocation :: rest, run =>
    match step caller scheme request index invocation run with
    | (some e, run) => (some e, run)
    | (none, run) => steps caller scheme request (index + 1) rest run

/-- The request with the object the webhooks have left, in the request's kind. -/
def admitted (scheme : Scheme) (request : Request) (objects : Option Versioned) :
    Except StatusError Request :=
  match objects with
  | some ⟨kind, some object, _, true⟩ =>
    if kind = request.kind then .ok { request with object := some object }
    else do
      let object ← Versioned.convertObject scheme.convert request.kind (some object)
      return { request with object := object }
  | _ => .ok request

/-- Calls mutating webhooks for a request. -/
def dispatch (caller : Caller σ) (scheme : Scheme) (request : Request) (tally : Tally)
    (invocations : List Invocation) (world : σ) : Dispatched σ :=
  match steps caller scheme request 0 invocations ⟨none, tally, [], world⟩ with
  | (some e, run) => ⟨.error e, request, run.tally, run.reports, run.world⟩
  | (none, run) =>
    match admitted scheme request run.objects with
    | .error e => ⟨.error e, request, run.tally, run.reports, run.world⟩
    | .ok request => ⟨.ok (), request, run.tally, run.reports, run.world⟩

end MutatingDispatch

end Admission
