import Admission.Proofs.Dispatch.Fidelity
import Admission.Proofs.Json.Diff
import Admission.Proofs.Refusal
import Admission.Service

/-!
# What the gateway answers

A body that holds no request is answered with a review that allows nothing (`Gateway.Invalid`).  Every
other answer says what the step of admission has decided and what was recorded on the way
(`Gateway.Answers`): a refusal comes with a status that reads as one and never with a patch, and a patch
comes exactly with an object that is written differently from the one that was submitted.

The second half needs that the objects are proper, since the patch is a diff of what is written of them
(`Json.diff_eq_nil_iff`): what is read of a body is (`Inbound.legible_of_ofJson`), and webhooks leave it so.
-/

namespace Admission

namespace Json

/-! ## 1. fields of an answer -/

/-- A status that cannot be taken for a success: a code of at least 400, a word that says neither nothing
nor `Success`, and a message. -/
structure ReadsAsRefusal (value : Json) : Prop where
  code : ∃ code, value.field? "code" = some (.int code) ∧ 400 ≤ code
  status : ∃ word, value.field? "status" = some (.str word) ∧ word ≠ "" ∧ word ≠ Status.success
  message : ∃ message, value.field? "message" = some (.str message) ∧ message ≠ ""

end Json

theorem StatusError.Refuses.toJson {e : StatusError} (h : e.Refuses) :
    e.status.toJson.ReadsAsRefusal := by
  have hkeys : ["code", "message", "reason", "status"].Pairwise (· < ·) := by decide
  have hfield : ∀ key, e.status.toJson.field? key = _ := Json.field?_ofSome hkeys
  refine ⟨⟨e.status.code, ?_, h.code⟩, ⟨e.status.status, ?_, h.status⟩,
    ⟨e.status.message, ?_, h.message⟩⟩
  · rw [hfield]
    rfl
  · rw [hfield]
    simp [Fields.get?, Json.nonempty, h.status.1]
  · rw [hfield]
    simp [Fields.get?, Json.nonempty, h.message]

/-! ## 2. the request in a body -/

namespace Json

theorem proper_of_asRecord {names : List String} {value : Json} {fields : Fields Json}
    (hv : value.Proper) (h : value.asRecord names = .ok fields) :
    ∀ pair ∈ fields, pair.2.Proper := by
  cases value with
  | obj pairs =>
    rw [Patch.fields_of_asRecord h]
    exact (keeps_obj_iff.1 hv).2
  | arr items =>
    rw [asRecord] at h
    split at h
    · cases h
      exact fun pair hm => keeps_arr_iff.1 hv pair.2 (List.of_mem_zip hm).2
    · cases h
  | _ => cases h

end Json

namespace Inbound

theorem object_of_requestOfJson {value : Json} {request : Request}
    (h : requestOfJson value = .ok request) :
    ∃ fields, value.asRecord ReviewRequest.fieldNames = .ok fields ∧
      fields.nullable "object" Object.ofJson = .ok request.object := by
  unfold requestOfJson at h
  obtain ⟨fields, hfields, h⟩ := bind_eq_ok.1 h
  refine ⟨fields, hfields, ?_⟩
  simp only [bind_eq_ok, pure, Except.pure, Except.ok.injEq] at h
  obtain ⟨_, -, _, -, _, -, _, -, _, -, _, -, _, -, _, -, _, -, _, -, _, -, object, hobject, _, -, _,
    -, _, -, rfl⟩ := h
  exact hobject

theorem request_of_ofJson {body : Json} {types : TypeMeta} {request : Request}
    (h : ofJson body = .ok ⟨types, some request⟩) :
    ∃ value, body.field? "request" = some value ∧ requestOfJson value = .ok request := by
  unfold ofJson at h
  obtain ⟨fields, hfields, h⟩ := bind_eq_ok.1 h
  have hrequest : fields.nullable "request" requestOfJson = .ok (some request) := by
    simp only [bind_eq_ok, pure, Except.pure, Except.ok.injEq, Inbound.mk.injEq] at h
    obtain ⟨_, -, _, -, found, hfound, _, -, -, rfl⟩ := h
    exact hfound
  cases body <;> cases hfields
  exact Fields.exists_of_nullable hrequest

/-- **The object of a request that is posted was read of a proper value.** -/
theorem legible_of_ofJson {body : Json} {types : TypeMeta} {request : Request}
    (hv : body.Proper) (h : ofJson body = .ok ⟨types, some request⟩) : request.Legible := by
  obtain ⟨value, hvalue, hrequest⟩ := request_of_ofJson h
  obtain ⟨fields, hfields, hobject⟩ := object_of_requestOfJson hrequest
  intro object hm
  rw [Option.mem_def.1 hm] at hobject
  obtain ⟨found, hfound, hread⟩ := Fields.exists_of_nullable hobject
  exact Object.legible_of_ofJson
    (Json.proper_of_asRecord (hv.field? hvalue) hfields _ (Fields.mem_of_get? hfound)) hread

theorem object_of_ofJson {body raw : Json} {types : TypeMeta} {request : Request}
    (h : ofJson body = .ok ⟨types, some request⟩)
    (hraw : (body.field? "request").bind (·.field? "object") = some raw) :
    raw.orNull Object.ofJson = .ok request.object := by
  obtain ⟨value, hvalue, hrequest⟩ := request_of_ofJson h
  obtain ⟨fields, hfields, hobject⟩ := object_of_requestOfJson hrequest
  rw [hvalue] at hraw
  cases value with
  | obj pairs =>
    obtain rfl := Patch.fields_of_asRecord hfields
    unfold Fields.nullable at hobject
    rw [show Fields.get? "object" fields = some raw from hraw] at hobject
    exact hobject
  | _ => cases hraw

end Inbound

/-! ## 3. the request after a step -/

namespace Plugin

variable {σ : Type} {plugin : Plugin σ} {request : Request} {tally : Tally} {world : σ}

variable (plugin request tally world) in
theorem handle_cases :
    (∃ verdict, plugin.handle request tally world = ⟨verdict, request, tally, [], world⟩) ∨
      ∃ invocations,
        plugin.handle request tally world = plugin.dispatch request tally invocations world := by
  unfold handle
  dsimp only
  split
  · exact .inl ⟨_, rfl⟩
  · exact .inl ⟨_, rfl⟩
  · split
    · exact .inl ⟨_, rfl⟩
    · exact .inl ⟨_, rfl⟩
    · exact .inr ⟨_, rfl⟩

theorem request_of_handle {P : Request → Prop} (hr : P request)
    (hd : ∀ invocations, P (plugin.dispatch request tally invocations world).request) :
    P (plugin.handle request tally world).request := by
  obtain ⟨verdict, h⟩ | ⟨invocations, h⟩ := handle_cases plugin request tally world
  · rw [h]
    exact hr
  · rw [h]
    exact hd invocations

theorem object_of_mutating {source : Time.Span → Snapshot} {namespaces : NamespaceLister}
    {scheme : Scheme} {readyTimeout : Time.Span} {caller : Caller σ} (hs : scheme.KeepsLegible)
    (ho : request.Legible) :
    let after := (mutating source namespaces scheme readyTimeout caller).handle request tally world
    after.request.Legible ∧ after.request.object.isSome = request.object.isSome := by
  refine request_of_handle (P := fun after => after.Legible ∧
    after.object.isSome = request.object.isSome) ⟨ho, rfl⟩ fun invocations => ⟨?_, ?_⟩
  · exact MutatingDispatch.legible_of_dispatch hs ho caller tally invocations world
  · exact MutatingDispatch.isSome_of_dispatch caller scheme request tally invocations world

theorem request_of_validating {source : Time.Span → Snapshot} {namespaces : NamespaceLister}
    {scheme : Scheme} {readyTimeout : Time.Span} {caller : Caller σ}
    {scheduler : ValidatingDispatch.Scheduler} :
    ((validating source namespaces scheme readyTimeout caller scheduler).handle
      request tally world).request = request := by
  refine request_of_handle (P := fun after => after = request) rfl fun invocations => ?_
  show (ValidatingDispatch.dispatch caller scheme scheduler request tally invocations
    world).request = request
  unfold ValidatingDispatch.dispatch
  split <;> rfl

end Plugin

namespace Gateway

/-! ## 4. the patch in an answer -/

/-- Objects, none or one each, that are written the same. -/
def WrittenSame (a b : Option Object) : Prop :=
  Option.Rel (fun x y => x.same y = true) (a.map Object.toJson) (b.map Object.toJson)

/-- There is a patch between objects that are written differently. -/
theorem patchBetween_eq_none_iff {a b : Option Object} (ha : ∀ o ∈ a, o.Proper)
    (hb : ∀ o ∈ b, o.Proper) (hsome : b.isSome = a.isSome) :
    patchBetween a b = none ↔ WrittenSame a b := by
  cases a with
  | none =>
    cases b with
    | none => exact ⟨fun _ => .none, fun _ => rfl⟩
    | some after => cases hsome
  | some before =>
    cases b with
    | none => cases hsome
    | some after =>
      have hdiff := Json.diff_eq_nil_iff (ha before rfl).toJson (hb after rfl).toJson
      have hrel : WrittenSame (some before) (some after) ↔
          before.toJson.same after.toJson = true :=
        ⟨fun h => by cases h; assumption, fun h => .some h⟩
      rw [hrel, ← hdiff, patchBetween]
      split
      · rename_i hnil
        exact ⟨fun _ => hnil, fun _ => rfl⟩
      · rename_i hne
        exact ⟨fun h => (by cases h), fun h => absurd h hne⟩

theorem patchBetween_self {a : Option Object} (ha : ∀ o ∈ a, o.Proper) :
    patchBetween a a = none := by
  refine (patchBetween_eq_none_iff ha ha rfl).2 ?_
  cases a with
  | none => exact .none
  | some o => exact .some (ha o rfl).toJson.same_refl

/-! ## 5. every answer -/

/-- What is under a key of the response in a review. -/
def responseField? (key : String) (review : Json) : Option Json :=
  (review.field? "response").bind (·.field? key)

/-- A review is of a kind. -/
def IsOf (types : TypeMeta) (review : Json) : Prop :=
  review.field? "apiVersion" = some (.str types.apiVersion) ∧
    review.field? "kind" = some (.str types.kind)

/-- **The answer to a body that holds no request**: it allows nothing and carries no patch, warnings or
annotations. -/
structure Invalid (review : Json) : Prop where
  types : IsOf ⟨Review.version, Review.kindName⟩ review
  allowed : responseField? "allowed" review = some (.bool false)
  unpatched : responseField? "patch" review = none
  warnings : responseField? "warnings" review = none
  annotations : responseField? "auditAnnotations" review = none

/-- **The answer to a request after a step of admission.** -/
structure Answers {σ : Type} (step : GatewayStep) (types : TypeMeta) (request : Request)
    (after : Dispatched σ) (review : Json) : Prop where
  /-- The review is of the kind of the one that was posted. -/
  types : IsOf types review
  uid : responseField? "uid" review = some (.str request.uid)
  allowed : responseField? "allowed" review = some (.bool after.verdict.isOk)
  /-- A refusal carries the status of its error, which reads as a refusal, and no patch. -/
  refused : ∀ e, after.verdict = .error e →
    responseField? "status" review = some e.status.toJson ∧ e.status.toJson.ReadsAsRefusal ∧
      responseField? "patch" review = none
  /-- Validating never changes the object. -/
  validated : step = .validate → responseField? "patch" review = none
  /-- An admitted request has a patch exactly if the object is written differently now. -/
  mutated : step = .mutate → after.verdict = .ok () →
    (responseField? "patch" review = none ↔ WrittenSame request.object after.request.object)
  /-- A patch, and nothing else, has a type. -/
  patchType : responseField? "patchType" review =
    (responseField? "patch" review).map fun _ => .str Review.jsonPatch
  /-- The warnings are those recorded, in their order. -/
  warnings : responseField? "warnings" review =
    if after.tally.record.warnings = [] then none
    else some (.ofStrings after.tally.record.warnings)
  /-- The annotations are those recorded. -/
  annotations : responseField? "auditAnnotations" review =
    if after.tally.record.annotations.isEmpty then none
    else some (.ofTexts after.tally.record.annotations)

theorem isOf_reviewOf (types : TypeMeta) (response : List (String × Option Json)) :
    IsOf types (reviewOf types response) := ⟨rfl, rfl⟩

theorem responseField?_reviewOf (types : TypeMeta) {response : List (String × Option Json)}
    (h : (response.map (·.1)).Pairwise (· < ·)) (key : String) :
    responseField? key (reviewOf types response) = (Fields.get? key response).join :=
  Json.field?_ofSome h key

theorem invalid_invalid (message : String) : Invalid (invalid message) := by
  have hkeys : ["allowed", "status", "uid"].Pairwise (· < ·) := by decide
  have hfield : ∀ key, responseField? key (invalid message) = _ := responseField?_reviewOf _ hkeys
  refine ⟨isOf_reviewOf _ _, ?_, ?_, ?_, ?_⟩
  all_goals
    rw [hfield]
    rfl

section Answer

variable {σ : Type} (types : TypeMeta) (request : Request) (after : Dispatched σ)

/-- The patch in the answer to a request. -/
def patch? : Option Patch :=
  match after.verdict with
  | .ok () => patchBetween request.object after.request.object
  | .error _ => none

theorem responseField?_answerOf (key : String) :
    responseField? key (answerOf types request after) = (Fields.get? key [
      ("allowed", some (Json.bool after.verdict.isOk)),
      ("auditAnnotations", if after.tally.record.annotations.isEmpty then none
        else some (.ofTexts after.tally.record.annotations)),
      ("patch", (patch? request after).map patchJson),
      ("patchType", (patch? request after).map fun _ => .str Review.jsonPatch),
      ("status", some (match after.verdict with
        | .ok () => .obj []
        | .error e => e.status.toJson)),
      ("uid", some (.str request.uid)),
      ("warnings", if after.tally.record.warnings = [] then none
        else some (.ofStrings after.tally.record.warnings))]).join := by
  have hkeys : ["allowed", "auditAnnotations", "patch", "patchType", "status", "uid",
    "warnings"].Pairwise (· < ·) := by decide
  refine responseField?_reviewOf types ?_ key
  exact hkeys

theorem answers_answerOf {step : GatewayStep}
    (hrefuses : ∀ e, after.verdict = .error e → e.Refuses)
    (hvalidated : step = .validate → patchBetween request.object after.request.object = none)
    (hmutated : step = .mutate → (patchBetween request.object after.request.object = none ↔
      WrittenSame request.object after.request.object)) :
    Answers step types request after (answerOf types request after) := by
  have hfield := responseField?_answerOf types request after
  have hpatch : responseField? "patch" (answerOf types request after) =
      (patch? request after).map patchJson := by
    rw [hfield]
    rfl
  refine {
    types := isOf_reviewOf _ _
    uid := ?_
    allowed := ?_
    refused := fun e he => ⟨?_, (hrefuses e he).toJson, ?_⟩
    validated := fun hstep => ?_
    mutated := fun hstep hok => ?_
    patchType := ?_
    warnings := ?_
    annotations := ?_ }
  · rw [hfield]
    rfl
  · rw [hfield]
    rfl
  · rw [hfield, he]
    rfl
  · rw [hpatch, patch?, he]
    rfl
  · rw [hpatch, patch?]
    split
    · rw [hvalidated hstep]
      rfl
    · rfl
  · rw [hpatch, Option.map_eq_none_iff, patch?, hok]
    exact hmutated hstep
  · rw [hpatch, hfield, Option.map_map]
    rfl
  · rw [hfield]
    rfl
  · rw [hfield]
    rfl

end Answer

variable {σ : Type}

/-- The step of admission that a review is sent to. -/
def plugin (gateway : Gateway σ) : GatewayStep → Plugin σ
  | .mutate => gateway.mutating
  | .validate => gateway.validating

/-- A request after the step it was sent to. -/
def through (gateway : Gateway σ) (step : GatewayStep) (request : Request) (metrics : Metrics)
    (world : σ) : Dispatched σ :=
  (gateway.plugin step).handle request
    ⟨.empty, metrics.observeRequest
      ⟨request.operation.text, request.resource.resource, step.text⟩, []⟩ world

theorem review_of_request (gateway : Gateway σ) (step : GatewayStep) {body : Json}
    {types : TypeMeta} {request : Request}
    (h : Inbound.ofJson body = .ok ⟨types, some request⟩) (metrics : Metrics) (world : σ) :
    (gateway.handle step body metrics world).review =
      answerOf types request (gateway.through step request metrics world) := by
  unfold handle
  rw [h]
  cases step <;> rfl

/-- The gateway of webhooks that a caller reaches: an object in another kind is the same object with
another statement of its kind, and nothing is filled in. -/
def reaching (caller : Caller σ) (scheduler : ValidatingDispatch.Scheduler)
    (registry : EquivalenceRegistry) (namespaces : NamespaceLister) (readyTimeout : Time.Span)
    (mutating validating : Time.Span → Snapshot) : Gateway σ :=
  let scheme : Scheme := ⟨.relabel, id, registry⟩
  ⟨.mutating mutating namespaces scheme readyTimeout caller,
    .validating validating namespaces scheme readyTimeout caller scheduler⟩

/-- **Every answer says what has been decided.**  Whatever is posted to a step, and however the webhooks
behave: a body that is no review, or one without a request, is answered with a review that allows
nothing; a request is answered with what the step has made of it. -/
theorem handle_answers (caller : Caller σ) (scheduler : ValidatingDispatch.Scheduler)
    (registry : EquivalenceRegistry) (namespaces : NamespaceLister) (readyTimeout : Time.Span)
    (mutating validating : Time.Span → Snapshot) (step : GatewayStep) {text : String} {body : Json}
    (hread : Json.read? text = some body) (metrics : Metrics) (world : σ) :
    let gateway := reaching caller scheduler registry namespaces readyTimeout mutating validating
    let review := (gateway.handle step body metrics world).review
    (∀ e, Inbound.ofJson body = .error e → Invalid review) ∧
    (∀ types, Inbound.ofJson body = .ok ⟨types, none⟩ → Invalid review) ∧
    ∀ types request, Inbound.ofJson body = .ok ⟨types, some request⟩ →
      Answers step types request (gateway.through step request metrics world) review := by
  intro gateway review
  refine ⟨fun e he => ?_, fun types ht => ?_, fun types request hr => ?_⟩
  · show Invalid (gateway.handle step body metrics world).review
    unfold handle
    rw [he]
    exact invalid_invalid _
  · show Invalid (gateway.handle step body metrics world).review
    unfold handle
    rw [ht]
    exact invalid_invalid _
  · have hreview : review =
        answerOf types request (gateway.through step request metrics world) :=
      gateway.review_of_request step hr metrics world
    have hlegible : request.Legible := Inbound.legible_of_ofJson (Json.proper_of_read? hread) hr
    have hproper : ∀ o ∈ request.object, o.Proper := fun o hm => (hlegible o hm).proper
    rw [hreview]
    cases step with
    | validate =>
      refine answers_answerOf types request _ (fun e he => Plugin.validating_refuses he)
        (fun _ => ?_) (fun h => by cases h)
      have hsame : (gateway.through .validate request metrics world).request = request :=
        Plugin.request_of_validating
      rw [hsame]
      exact patchBetween_self hproper
    | mutate =>
      obtain ⟨hafter, hsome⟩ := Plugin.object_of_mutating (Scheme.keepsLegible_relabel registry)
        hlegible
      exact answers_answerOf types request _ (fun e he => Plugin.mutating_refuses he)
        (fun h => by cases h) fun _ => patchBetween_eq_none_iff hproper
          (fun o hm => (hafter o hm).proper) hsome

/-! ### a pod that a webhook labels -/

open MutatingDispatch (patching namedPod podCreation)

/-- A webhook for all requests. -/
def patcher : Webhook :=
  { Webhook.bare "patcher" .mutating with rules := [⟨["*"], ["*"], ["*"], ["*"], none⟩] }

/-- The gateway of this webhook, which answers with a patch. -/
def patchingWith (patch : String) : Gateway Unit :=
  .reaching (patching patch) ValidatingDispatch.promptFirst .empty (fun _ => none) ⟨0⟩
    (fun _ => ⟨[patcher], true, 1⟩) (fun _ => .initial)

/-- A review that asks whether a pod may be created. -/
def posted (pod : Json) : Json :=
  .obj [("apiVersion", .str Review.version), ("kind", .str Review.kindName), ("request", .obj [
    ("kind", .obj [("group", .str ""), ("kind", .str "Pod"), ("version", .str "v1")]),
    ("object", pod),
    ("operation", .str "CREATE"),
    ("resource", .obj [("group", .str ""), ("resource", .str "pods"), ("version", .str "v1")]),
    ("uid", .str "req-uid"),
    ("userInfo", .obj [])])]

/-- Adds one label. -/
def oneLabel : String :=
  "[\x7b\"op\":\"add\",\"path\":\"/metadata/labels/a\",\"value\":\"b\"\x7d]"

/-- The answer for a pod without labels. -/
theorem handle_answers_labelled_pod :
    Json.read? (posted namedPod.toJson).write = some (posted namedPod.toJson) ∧
      Answers .mutate ⟨Review.version, Review.kindName⟩ podCreation
        ((patchingWith oneLabel).through .mutate podCreation {} ())
        ((patchingWith oneLabel).handle .mutate (posted namedPod.toJson) {} ()).review := by
  have hread : Json.read? (posted namedPod.toJson).write = some (posted namedPod.toJson) := by
    decide +kernel
  have hrequest : Inbound.ofJson (posted namedPod.toJson) =
      .ok ⟨⟨Review.version, Review.kindName⟩, some podCreation⟩ := by decide +kernel
  refine ⟨hread, ?_⟩
  exact (handle_answers (patching oneLabel) ValidatingDispatch.promptFirst .empty (fun _ => none) ⟨0⟩
    (fun _ => ⟨[patcher], true, 1⟩) (fun _ => .initial) .mutate hread {} ()).2.2 _ _ hrequest

end Gateway

/-- The gateway of a service is that of the webhooks it reaches over its network. -/
theorem Service.gateway_eq_reaching {σ : Type} (service : Service σ) :
    service.gateway = Gateway.reaching
      (Caller.overNetwork service.manager service.network service.clock
        service.settings.client.defaultTimeout)
      ValidatingDispatch.promptFirst service.settings.registry service.settings.namespaces.get?
      service.settings.client.readyTimeout (fun _ => service.watch.source.mutating)
      (fun _ => service.watch.source.validating) := rfl

end Admission
