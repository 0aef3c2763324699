import Admission.Cluster.Source
import Admission.Time.Span

/-!
# Listing and watching

The objects of a kind are listed and then watched.  A watch that ends is opened again where it
ended.  After a failure there is a pause; what arrives during it waits.  If the failure is that the
place in the history is lost, or if it was the list that failed, the pause is followed by a list.
-/

namespace Admission

/-- An object as it is watched: its metadata and what of it is copied. -/
abbrev Watched (α : Type) := Json → Decoded (ObjectMeta × α)

/-- What a request for a list is answered. -/
structure ListReply where
  status : Nat
  body : Json
  deriving DecidableEq

/-- What arrives on a watch. -/
inductive WatchLine where
  | event (value : Json)
  /-- The watch has ended. -/
  | closed
  deriving DecidableEq

/-- What an event of a watch means. -/
inductive WatchMeaning (α : Type) where
  | change (event : StoreEvent α)
  | nothing
  /-- The place in the history is lost. -/
  | lost
  | fault

/-! ## 1. reading -/

/-- The objects of a list with their names; a list must say where in the history it is. -/
def ListReply.objects {α : Type} (read : Watched α) (reply : ListReply) :
    Option (List (String × α)) :=
  let decoded : Decoded (Option (List (String × α))) := do
    let fields ← reply.body.asFields
    let metadata : Fields Json ← fields.defaulted "metadata" [] Json.asFields
    let version ← metadata.nullableD "resourceVersion" "" Json.asText
    let items ← fields.required "items" fun items => items.orNull (Json.asList read)
    let objects := (items.getD []).map fun (metadata, object) =>
      (metadata.name.getD "", object)
    return if reply.status < 400 ∧ version ≠ "" then some objects else none
  decoded.toOption.join

namespace WatchMeaning

variable {α : Type}

/-- The change of an object, which must say where in the history it is. -/
def ofObject (read : Watched α) (change : String → α → StoreEvent α) (value : Json) :
    WatchMeaning α :=
  match read value with
  | .error _ => .fault
  | .ok (metadata, object) =>
    if metadata.resourceVersion.getD "" = "" then .lost
    else .change (change (metadata.name.getD "") object)

/-- Whether a bookmark says where in the history it is. -/
def isBookmark (value : Json) : Bool :=
  ((do
    let fields ← value.asFields
    let _ ← fields.required "apiVersion" Json.asText
    let _ ← fields.required "kind" Json.asText
    let metadata ← fields.required "metadata" Json.asFields
    metadata.required "resourceVersion" Json.asText) : Decoded String).isOk

/-- The code that an error event carries. -/
def errorCode (value : Json) : Decoded Int := do
  (← value.asFields).defaulted "code" 0 Json.asInt64

/-- What an event means. -/
def ofEvent (read : Watched α) (value : Json) : WatchMeaning α :=
  match value.field? "type", value.field? "object" with
  | some (.str type), some object =>
    if type = "ADDED" ∨ type = "MODIFIED" then ofObject read .applied object
    else if type = "DELETED" then ofObject read (fun name _ => .deleted name) object
    else if type = "BOOKMARK" then if isBookmark object then .nothing else .fault
    else if type = "ERROR" then
      match errorCode object with
      | .ok code => if code = 410 then .lost else .fault
      | .error _ => .fault
    else .fault
  | _, _ => .fault

end WatchMeaning

/-! ## 2. the machine -/

/-- Where a watcher stands. -/
inductive WatchPhase where
  | idle
  /-- A list is to be read. -/
  | unlisted
  /-- A watch is open. -/
  | watching
  deriving DecidableEq, Repr

/-- A watcher of the objects of a kind. -/
structure Watcher where
  phase : WatchPhase := .idle
  /-- What is left of a pause. -/
  pause : Option Time.Span := none
  /-- What arrived during the pause. -/
  inbox : List WatchLine := []
  /-- How many lists were asked for. -/
  lists : Nat := 0
  /-- How many watches were opened. -/
  watches : Nat := 0
  deriving DecidableEq

namespace Watcher

variable {α : Type}

/-- How long a pause lasts. -/
def pauseLength : Time.Span := .ofSeconds 120

/-- Asks for a list and, if there is one, opens a watch. -/
def list (read : Watched α) (reply : ListReply) (w : Watcher) : Watcher × List (StoreEvent α) :=
  let w := { w with lists := w.lists + 1, pause := none, inbox := [] }
  match reply.objects read with
  | some objects =>
    ({ w with phase := .watching, watches := w.watches + 1 },
      .listing :: objects.map (fun (name, object) => .listed name object) ++ [.listDone])
  | none => ({ w with phase := .unlisted, pause := some pauseLength }, [.listing, .failed])

/-- Takes lines of an open watch, up to the first failure. -/
def take (read : Watched α) (w : Watcher) : List WatchLine → Watcher × List (StoreEvent α)
  | [] => ({ w with inbox := [] }, [])
  | .closed :: rest => take read { w with watches := w.watches + 1 } rest
  | .event value :: rest =>
    match WatchMeaning.ofEvent read value with
    | .change event =>
      let (w, events) := take read w rest
      (w, event :: events)
    | .nothing => take read w rest
    | .lost =>
      ({ w with phase := .unlisted, pause := some pauseLength, inbox := [] }, [.failed])
    | .fault => ({ w with pause := some pauseLength, inbox := rest }, [.failed])

/-- Starts, if it has not started yet. -/
def start (read : Watched α) (reply : ListReply) (w : Watcher) : Watcher × List (StoreEvent α) :=
  match w.phase with
  | .idle => w.list read reply
  | _ => (w, [])

/-- A line arrives.  Without an open watch it goes nowhere. -/
def receive (read : Watched α) (line : WatchLine) (w : Watcher) : Watcher × List (StoreEvent α) :=
  match w.phase, w.pause with
  | .watching, none => w.take read [line]
  | .watching, some _ => ({ w with inbox := w.inbox ++ [line] }, [])
  | _, _ => (w, [])

/-- Time passes; a pause may end. -/
def advance (read : Watched α) (reply : ListReply) (passed : Time.Span) (w : Watcher) :
    Watcher × List (StoreEvent α) :=
  match w.pause with
  | none => (w, [])
  | some left =>
    if passed.nanoseconds < left.nanoseconds then
      ({ w with pause := some ⟨left.nanoseconds - passed.nanoseconds⟩ }, [])
    else
      match w.phase with
      | .watching => { w with pause := none }.take read w.inbox
      | _ => w.list read reply

end Watcher

/-! ## 3. the kinds that are watched -/

/-- A webhook configuration. -/
def Watched.configuration (kind : WebhookKind) : Watched Configuration := fun value => do
  let configuration ← Configuration.ofJson kind value
  return (configuration.metadata, configuration)

/-- Checks the form of a condition of a namespace. -/
def checkNamespaceCondition (value : Json) : Decoded Unit := do
  let fields ← value.asFields
  let _ ← fields.nullable "lastTransitionTime" Json.asInstant
  for key in ["message", "reason", "status", "type"] do
    let _ ← fields.nullable key Json.asText

/-- A namespace, of which the labels are copied. -/
def Watched.namespaceLabels : Watched Labels := fun value => do
  let fields ← value.asFields
  Configuration.expectText fields "apiVersion" "v1"
  Configuration.expectText fields "kind" "Namespace"
  let metadata ← fields.nullableD "metadata" {} ObjectMeta.ofJson
  let spec : Fields Json ← fields.nullableD "spec" [] Json.asFields
  let _ ← spec.nullable "finalizers" (Json.asList Json.asText)
  let status : Fields Json ← fields.nullableD "status" [] Json.asFields
  let _ ← status.nullable "phase" Json.asText
  let _ ← status.nullable "conditions" (Json.asList checkNamespaceCondition)
  return (metadata, metadata.labels.getD ∅)

end Admission
