import Admission.Proofs.Dispatch.Accounts
import Admission.Proofs.Gateway.Answer

/-!
# The accounts of a gateway

A gateway counts the reviews that come in with a request and the answers to them, and neither a step of
admission nor a dispatch counts either.  So after any bodies there is one more review and one more answer for
each body that held a request (`Metrics.Reviewed`), and the answers are counted under what they say.

With what is counted of webhooks (`Metrics.Accounted`) these are all accounts there are:
`every_outcome_is_counted_once`.
-/

namespace Admission

variable {σ : Type}

/-! ## 1. Steps of admission that call webhooks -/

/-- A step of admission that calls webhooks, one after another or all at the same time. -/
inductive Plugin.OfWebhooks : Plugin σ → Prop where
  | mutating (source : Time.Span → Snapshot) (namespaces : NamespaceLister) (scheme : Scheme)
      (readyTimeout : Time.Span) (caller : Caller σ) :
      OfWebhooks (.mutating source namespaces scheme readyTimeout caller)
  | validating (source : Time.Span → Snapshot) (namespaces : NamespaceLister) (scheme : Scheme)
      (readyTimeout : Time.Span) (caller : Caller σ) (scheduler : ValidatingDispatch.Scheduler) :
      OfWebhooks (.validating source namespaces scheme readyTimeout caller scheduler)

/-- **A step of admission counts no reviews.** -/
theorem Plugin.OfWebhooks.reviews {plugin : Plugin σ} (h : plugin.OfWebhooks) (request : Request)
    (tally : Tally) (world : σ) :
    (plugin.handle request tally world).tally.metrics.requests = tally.metrics.requests ∧
      (plugin.handle request tally world).tally.metrics.responses = tally.metrics.responses := by
  obtain ⟨verdict, hpassed⟩ | ⟨invocations, hdispatched⟩ := handle_cases plugin request tally world
  · rw [hpassed]
    exact ⟨rfl, rfl⟩
  · rw [hdispatched]
    cases h with
    | mutating _ _ scheme _ caller =>
      have htallied := MutatingDispatch.tallied_of_dispatch caller scheme request tally invocations world
      exact ⟨htallied.requests, htallied.responses⟩
    | validating _ _ scheme _ caller scheduler =>
      have hcomes := ValidatingDispatch.comesTo_dispatch caller scheme scheduler request tally invocations
        world
      show (ValidatingDispatch.dispatch caller scheme scheduler request tally invocations
          world).tally.metrics.requests = _ ∧ (ValidatingDispatch.dispatch caller scheme scheduler request
          tally invocations world).tally.metrics.responses = _
      generalize ValidatingDispatch.dispatch caller scheme scheduler request tally invocations world =
        after at hcomes
      cases hcomes with
      | unprepared failed => exact ⟨rfl, rfl⟩
      | joined finished =>
        exact ⟨(finished.tallied tally).requests, (finished.tallied tally).responses⟩

/-! ## 2. Bodies that are posted -/

/-- A body that is posted to a gateway, with the gateway and the world as they are then. -/
structure Post (σ : Type) where
  gateway : Gateway σ
  mutates : gateway.mutating.OfWebhooks
  validates : gateway.validating.OfWebhooks
  step : GatewayStep
  body : Json
  world : σ

namespace Post

/-- The request in the body, if the body reads as a review with one. -/
def request? (post : Post σ) : Option Request :=
  match Inbound.ofJson post.body with
  | .ok inbound => inbound.request
  | .error _ => none

/-- What the review is counted under that comes in. -/
def received? (post : Post σ) : Option RequestLabels :=
  post.request?.map fun request =>
    ⟨request.operation.text, request.resource.resource, post.step.text⟩

/-- What an answer is counted under: what it says to the request, if there is one. -/
def answered? (post : Post σ) (review : Json) : Option ResponseLabels :=
  match post.request?, Gateway.responseField? "allowed" review with
  | some _, some (.bool allowed) => some ⟨allowed, post.step.text⟩
  | _, _ => none

/-- What the gateway does with the body. -/
def handle (post : Post σ) (metrics : Metrics) : Answered σ :=
  post.gateway.handle post.step post.body metrics post.world

/-- Bodies that are posted one after another, each with the answer to it, and the metrics after them. -/
def handleAll : List (Post σ) → Metrics → List (Post σ × Json) × Metrics
  | [], metrics => ([], metrics)
  | post :: rest, metrics =>
    let answered := post.handle metrics
    let (others, after) := handleAll rest answered.metrics
    ((post, answered.review) :: others, after)

/-- **A body counts as one review and one answer if it holds a request**, and as none otherwise. -/
theorem metrics_handle (post : Post σ) (metrics : Metrics) :
    (post.handle metrics).metrics.requests = metrics.requests ++ post.received?.toList ∧
      (post.handle metrics).metrics.responses =
        metrics.responses ++ (post.answered? (post.handle metrics).review).toList ∧
      (post.answered? (post.handle metrics).review).isSome = post.request?.isSome := by
  unfold received? answered? request?
  cases hbody : Inbound.ofJson post.body with
  | error e =>
    have hsame : (post.handle metrics).metrics = metrics := by
      unfold handle Gateway.handle
      rw [hbody]
    rw [hsame]
    simp
  | ok inbound =>
    obtain ⟨types, request⟩ := inbound
    cases request with
    | none =>
      have hsame : (post.handle metrics).metrics = metrics := by
        unfold handle Gateway.handle
        rw [hbody]
      rw [hsame]
      simp
    | some request =>
      have hreview : (post.handle metrics).review = Gateway.answerOf types request
          (post.gateway.through post.step request metrics post.world) :=
        post.gateway.review_of_request post.step hbody metrics post.world
      have hallowed := Gateway.responseField?_answerOf types request
        (post.gateway.through post.step request metrics post.world) "allowed"
      have hmetrics : (post.handle metrics).metrics =
          (post.gateway.through post.step request metrics post.world).tally.metrics.observeResponse
            ⟨(post.gateway.through post.step request metrics post.world).verdict.isOk,
              post.step.text⟩ := by
        unfold handle Gateway.handle
        rw [hbody]
        cases post.step <;> rfl
      have hplugin : (post.gateway.plugin post.step).OfWebhooks := by
        cases post.step with
        | mutate => exact post.mutates
        | validate => exact post.validates
      obtain ⟨hrequests, hresponses⟩ := hplugin.reviews request ⟨.empty, metrics.observeRequest
        ⟨request.operation.text, request.resource.resource, post.step.text⟩, []⟩ post.world
      rw [hreview, hallowed, hmetrics]
      refine ⟨hrequests, ?_, rfl⟩
      exact congrArg (· ++ [_]) hresponses

end Post

namespace Metrics

/-- **What has been counted of bodies** that were posted one after another, given the answers to them. -/
structure Reviewed (posts : List (Post σ)) (answers : List (Post σ × Json)) (before after : Metrics) :
    Prop where
  /-- Every body is answered. -/
  all : answers.map (·.1) = posts
  /-- One more review has come in for each body that holds a request. -/
  received : total after.requests = total before.requests + posts.countP (·.request?.isSome)
  /-- And one has gone out. -/
  answered : total after.responses = total before.responses + posts.countP (·.request?.isSome)
  requests : ∀ labels, after.requests.count labels =
    before.requests.count labels + posts.countP (·.received? = some labels)
  /-- The answers are counted under what they say. -/
  responses : ∀ labels, after.responses.count labels =
    before.responses.count labels + answers.countP fun a => a.1.answered? a.2 = some labels

end Metrics

namespace Post

theorem metrics_handleAll (posts : List (Post σ)) (metrics : Metrics) :
    (handleAll posts metrics).1.map (·.1) = posts ∧
      (handleAll posts metrics).2.requests = metrics.requests ++ posts.filterMap received? ∧
      (handleAll posts metrics).2.responses = metrics.responses ++
        (handleAll posts metrics).1.filterMap (fun a => a.1.answered? a.2) ∧
      ∀ a ∈ (handleAll posts metrics).1, (a.1.answered? a.2).isSome = a.1.request?.isSome := by
  induction posts generalizing metrics with
  | nil => simp [handleAll]
  | cons post rest ih =>
    obtain ⟨hrequests, hresponses, hsome⟩ := post.metrics_handle metrics
    obtain ⟨hall, hrequests', hresponses', hsome'⟩ := ih (post.handle metrics).metrics
    refine ⟨congrArg (post :: ·) hall, ?_, ?_, ?_⟩
    · rw [filterMap_cons_toList, ← List.append_assoc, ← hrequests]
      exact hrequests'
    · show (handleAll rest (post.handle metrics).metrics).2.responses = metrics.responses ++
        ((post, (post.handle metrics).review) ::
          (handleAll rest (post.handle metrics).metrics).1).filterMap _
      rw [filterMap_cons_toList, ← List.append_assoc, ← hresponses]
      exact hresponses'
    · intro a ha
      rcases List.mem_cons.1 ha with rfl | ha
      · exact hsome
      · exact hsome' a ha

/-- **Every body that holds a request is counted once as it comes in and once as it is answered**, and no
other body is. -/
theorem reviewed_handleAll (posts : List (Post σ)) (metrics : Metrics) :
    Metrics.Reviewed posts (handleAll posts metrics).1 metrics (handleAll posts metrics).2 := by
  obtain ⟨hall, hrequests, hresponses, hsome⟩ := metrics_handleAll posts metrics
  obtain ⟨hreceived, hcounted⟩ := Metrics.counts_of_perm (.of_eq hrequests)
  obtain ⟨hanswered, hcounted'⟩ := Metrics.counts_of_perm (.of_eq hresponses)
  refine ⟨hall, ?_, ?_, hcounted, hcounted'⟩
  · rw [hreceived]
    congr 2
    funext post
    exact Option.isSome_map
  · have hposts : posts.countP (·.request?.isSome) =
        (handleAll posts metrics).1.countP fun a => a.1.request?.isSome := by
      conv_lhs => rw [← hall]
      exact List.countP_map
    rw [hanswered, hposts]
    congr 1
    exact List.countP_congr fun a ha => by rw [hsome a ha]

end Post

/-! ## 3. All accounts -/

open Metrics (Accounted Reviewed total) in
/-- **Every outcome is counted once.**  Where no conversion fails, the webhooks that a dispatch attempts, all of
them if the request goes on, are as many as those that allowed the request, with a patch that took effect or
none, and the increases of the two counters together.  The request is refused exactly if there are more
rejections than before: one more after mutating webhooks, and after validating ones, in every interleaving, one
more for each webhook that ended it.  Bodies that are posted to gateways are counted as they come in and as
they are answered if they hold a request, and so both totals of a gateway are the number of those bodies. -/
theorem every_outcome_is_counted_once (caller : Caller σ) (scheme : Scheme) (request : Request)
    (tally : Tally) (invocations : List Invocation) (world : σ) (posts : List (Post σ))
    (metrics : Metrics) :
    (let after := MutatingDispatch.dispatch caller scheme request tally invocations world
      let fates := MutatingDispatch.fates scheme request (invocations.zip after.reports)
      MutatingDispatch.Converts scheme request invocations after.reports →
        fates.length = after.reports.length ∧
        (after.verdict = .ok () → after.reports.length = invocations.length) ∧
        Accounted request.operation fates tally.metrics after.tally.metrics after.verdict ∧
        total after.tally.metrics.rejections ≤ total tally.metrics.rejections + 1) ∧
    (∀ crew : ValidatingDispatch.Crew σ, crew.Finished caller scheme request invocations world →
      let after := crew.outcome request tally
      (crew.fates invocations).length = invocations.length ∧
      Accounted request.operation (crew.fates invocations) tally.metrics after.tally.metrics
        after.verdict) ∧
    ((∀ invocation ∈ invocations, ∃ objects,
        Versioned.ofRequest scheme.convert request invocation.kind = .ok objects) →
      ∀ scheduler, ∃ crew : ValidatingDispatch.Crew σ,
        crew.Finished caller scheme request invocations world ∧
        ValidatingDispatch.dispatch caller scheme scheduler request tally invocations world =
          crew.outcome request tally) ∧
    Reviewed posts (Post.handleAll posts metrics).1 metrics (Post.handleAll posts metrics).2 ∧
    total (Post.handleAll posts {}).2.requests = posts.countP (·.request?.isSome) ∧
    total (Post.handleAll posts {}).2.responses = posts.countP (·.request?.isSome) := by
  refine ⟨?_, ?_, ?_, Post.reviewed_handleAll posts metrics, ?_⟩
  · exact MutatingDispatch.accounted_of_dispatch caller scheme request tally invocations world
  · exact fun crew hfinished => hfinished.accounted tally
  · exact fun hconverts scheduler =>
      ValidatingDispatch.exists_finished caller scheduler tally world hconverts
  · have hreviewed := Post.reviewed_handleAll posts {}
    have hzero : ∀ {α : Type} [DecidableEq α], total ([] : List α) = 0 := fun {_ _} => rfl
    exact ⟨by rw [hreviewed.received, hzero, Nat.zero_add],
      by rw [hreviewed.answered, hzero, Nat.zero_add]⟩

/-! ### three webhooks, of which one is down and one says no -/

/-- One webhook cannot be reached, one denies, and the others allow. -/
def unevenly : Script where
  refusal _ := none
  reply hook _ :=
    if hook.name = "down" then .error (.connect "down" "refused")
    else .ok {
      apiVersion := Review.version
      kind := Review.kindName
      response := some { uid := "req-uid", allowed := hook.name ≠ "denier" } }

/-- A webhook of a name that takes pods as they are, and is passed over if it is down. -/
def lenient (name : String) : Invocation :=
  { MutatingDispatch.podInvocation with
    webhook := { Webhook.bare name .mutating with failurePolicy := .ignore } }

theorem every_outcome_is_counted_once_unevenly :
    let invocations := [lenient "down", lenient "neutral", lenient "denier"]
    let after := MutatingDispatch.dispatch unevenly.caller MutatingDispatch.plainScheme
      MutatingDispatch.podCreation ⟨.empty, {}, []⟩ invocations ()
    let fates := MutatingDispatch.fates MutatingDispatch.plainScheme MutatingDispatch.podCreation
      (invocations.zip after.reports)
    MutatingDispatch.Converts MutatingDispatch.plainScheme MutatingDispatch.podCreation invocations
      after.reports ∧
    after.tally.metrics.failOpens = [⟨"down", .mutating⟩] ∧
    after.tally.metrics.rejections = [⟨"denier", .mutating, .create, .noError, 400⟩] ∧
    fates.length = after.reports.length ∧
    Metrics.Accounted .create fates {} after.tally.metrics after.verdict := by
  intro invocations after fates
  have hconverts : MutatingDispatch.Converts MutatingDispatch.plainScheme MutatingDispatch.podCreation
      invocations after.reports := MutatingDispatch.converts_of_kinds (by decide) after.reports
  obtain ⟨hlength, -, haccounted, -⟩ := (every_outcome_is_counted_once unevenly.caller
    MutatingDispatch.plainScheme MutatingDispatch.podCreation ⟨.empty, {}, []⟩ invocations () [] {}).1
    hconverts
  exact ⟨hconverts, by decide +kernel, by decide +kernel, hlength, haccounted⟩

end Admission
