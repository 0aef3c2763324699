import Admission.Proofs.Dispatch.Fidelity
import Admission.Proofs.Dispatch.Script

/-!
# Mutating and validating webhooks under one policy

The same webhooks, once mutating and once validating, decide alike, if what they answer depends on nothing
and they give no patches (`dispatchers_agree`).  Then a call ends the request or does not, whatever the
object (`Script.Steady.abort?`); a mutating dispatch looks for the first that does (`verdict_steady`), and
a validating one whether there is any.
-/

namespace Admission

variable {σ τ : Type}

/-! ## 1. Webhooks of either kind -/

/-- The same webhook, of a kind. -/
def Webhook.ofKind (hook : Webhook) (kind : WebhookKind) : Webhook := { hook with kind := kind }

/-- The same invocation, of a webhook of a kind. -/
def Invocation.ofKind (invocation : Invocation) (kind : WebhookKind) : Invocation :=
  { invocation with webhook := invocation.webhook.ofKind kind }

/-- An answer without a patch counts for either kind of webhook or for none. -/
theorem Review.verify_of_patchless {answer : Review}
    (h : ∀ response, answer.response = some response → response.patch = none ∧
      response.patchType = none) (uid : String) (kind other : WebhookKind) :
    answer.verify uid kind = answer.verify uid other := by
  unfold verify ReviewResponse.patchBytes
  cases hr : answer.response with
  | none => rfl
  | some response =>
    obtain ⟨hp, ht⟩ := h response hr
    simp [hp, ht]

namespace Script

/-- **A webhook that answers the same** whatever objects it is sent, of either kind, and without a
patch. -/
structure Steady (script : Script) (request : Request) (invocation : Invocation)
    (reply : Except ClientError Review) : Prop where
  refusal : script.refusal (invocation.webhook.ofKind .mutating) =
    script.refusal (invocation.webhook.ofKind .validating)
  replies : ∀ kind object oldObject, script.reply (invocation.webhook.ofKind kind)
    (Review.ask request invocation object oldObject) = reply
  patchless : ∀ answer response, reply = .ok answer → answer.response = some response →
    response.patch = none ∧ response.patchType = none

namespace Steady

variable {script : Script} {request : Request} {invocation : Invocation}
  {reply : Except ClientError Review}

theorem reply_eq (h : script.Steady request invocation reply) (kind : WebhookKind)
    (objects : Versioned) :
    script.reply (invocation.ofKind kind).webhook
      (Review.ask request (invocation.ofKind kind) objects.object objects.oldObject) = reply :=
  h.replies kind objects.object objects.oldObject

/-- **The outcome of a call is the same** for either kind and whatever objects. -/
theorem outcome (h : script.Steady request invocation reply) (kind other : WebhookKind)
    (objects objects' : Versioned) :
    (script.call request (invocation.ofKind kind) objects).2 =
      (script.call request (invocation.ofKind other) objects').2 := by
  have hrefusal : script.refusal (invocation.webhook.ofKind kind) =
      script.refusal (invocation.webhook.ofKind other) := by
    cases kind <;> cases other <;> simp only [h.refusal]
  have hgate : (invocation.ofKind kind).webhook.gate request =
      (invocation.ofKind other).webhook.gate request := rfl
  have hanswer : script.answer request (invocation.ofKind kind) objects =
      script.answer request (invocation.ofKind other) objects' := by
    unfold answer
    rw [h.reply_eq kind, h.reply_eq other]
    cases reply with
    | error e => rfl
    | ok answer =>
      dsimp only
      rw [Review.verify_of_patchless (fun response => h.patchless answer response rfl)
        request.uid (invocation.ofKind kind).webhook.kind (invocation.ofKind other).webhook.kind]
      rfl
  unfold call
  rw [hgate, hanswer]
  cases (invocation.ofKind other).webhook.gate request with
  | error failure => rfl
  | ok _ =>
    unfold Invocation.ofKind
    dsimp only
    rw [hrefusal]
    cases script.refusal (invocation.webhook.ofKind other) <;> rfl

theorem abort?_eq (h : script.Steady request invocation reply) (kind other : WebhookKind)
    (objects objects' : Versioned) :
    script.abort? request (invocation.ofKind kind) objects =
      script.abort? request (invocation.ofKind other) objects' := by
  unfold abort?
  rw [h.outcome kind other objects objects']
  rfl

theorem patch? (h : script.Steady request invocation reply) {kind : WebhookKind}
    {objects : Versioned} {report : CallReport}
    (hcall : (report.sent, report.outcome) =
      script.call request (invocation.ofKind kind) objects) : report.patch? = .ok [] := by
  unfold CallReport.patch?
  cases ho : report.outcome with
  | error failure => rfl
  | ok response =>
    obtain ⟨answer, hanswer, hverify⟩ := exists_reply_of_call (by rw [← hcall]; exact ho)
    obtain ⟨hp, -⟩ := h.patchless answer response ((h.reply_eq kind objects).symm.trans hanswer)
      (Review.response_of_verify hverify)
    dsimp only
    split
    · unfold Mutation.patchOf ReviewResponse.patchBytes
      rw [hp]
      rfl
    · rfl

end Steady

/-- The error that a mutating webhook ends the request with, if it ends it. -/
def alone (script : Script) (request : Request) (invocation : Invocation) : Option StatusError :=
  script.abort? request (invocation.ofKind .mutating) (Versioned.submitted request)

end Script

/-! ## 2. One after another -/

namespace MutatingDispatch

variable {caller : Caller σ} {script : Script} {fit : σ → Prop} {scheme : Scheme}
  {request : Request} {invocations : List Invocation}

/-- **A run finds the first webhook that ends the request**, and leaves the object alone. -/
theorem steps_steady (hf : caller.Follows script fit) (hconvert : scheme.convert = .relabel)
    (hcomplete : ∀ i ∈ invocations, i.kind.isComplete = true)
    (hsteady : ∀ i ∈ invocations, ∃ reply, script.Steady request i reply) (run : Run σ)
    (hw : fit run.world) (hclean : (run.held request).dirty = false) (index : Nat) :
    ∃ after, steps caller scheme request index (invocations.map (·.ofKind .mutating)) run =
        (invocations.findSome? (script.alone request), after) ∧
      (invocations.findSome? (script.alone request) = none →
        (after.held request).dirty = false) := by
  induction invocations generalizing run index with
  | nil => exact ⟨run, rfl, fun _ => hclean⟩
  | cons i rest ih =>
    obtain ⟨reply, hreply⟩ := hsteady i List.mem_cons_self
    have hkind : (i.ofKind .mutating).kind.isComplete = true := hcomplete i List.mem_cons_self
    obtain ⟨objects, hobjects, hdirty⟩ := (run.held request).convertTo_relabel hkind
    rw [← hconvert] at hobjects
    obtain ⟨report, after, hcall, hnext, -, hstep⟩ := step_scripted hf hw hobjects index
    have habort : report.abort? (i.ofKind .mutating).webhook = script.alone request i :=
      (Script.abort?_of_call hcall).trans (hreply.abort?_eq _ _ _ _)
    have hpatch := hreply.patch? hcall
    unfold Mutation.conclude at hstep
    rw [habort, hpatch] at hstep
    rw [List.map_cons, steps, List.findSome?_cons]
    cases halone : script.alone request i with
    | some e =>
      rw [halone] at hstep
      rw [hstep.1]
      exact ⟨after, rfl, fun h => by (cases h)⟩
    | none =>
      rw [halone] at hstep
      obtain ⟨hs, hafter, -⟩ := hstep
      rw [hs]
      refine ih (fun i hi => hcomplete i (List.mem_cons_of_mem _ hi))
        (fun i hi => hsteady i (List.mem_cons_of_mem _ hi)) after hnext ?_ (index + 1)
      have hnone : report.patches = false := by
        unfold CallReport.patches
        rw [hpatch]
        rfl
      rw [Run.held, hafter, Option.getD_some]
      simp [hdirty, hclean, hnone]

/-- **A dispatch ends with the error of the first webhook that ends the request**, if there is one. -/
theorem verdict_steady (hf : caller.Follows script fit) (hconvert : scheme.convert = .relabel)
    (hcomplete : ∀ i ∈ invocations, i.kind.isComplete = true)
    (hsteady : ∀ i ∈ invocations, ∃ reply, script.Steady request i reply) {world : σ}
    (hw : fit world) (tally : Tally) :
    (dispatch caller scheme request tally (invocations.map (·.ofKind .mutating)) world).verdict =
      (invocations.findSome? (script.alone request)).elim (.ok ()) .error := by
  obtain ⟨after, hs, hclean⟩ := steps_steady hf hconvert hcomplete hsteady
    ⟨none, tally, [], world⟩ hw rfl 0
  unfold dispatch
  rw [hs]
  cases hfirst : invocations.findSome? (script.alone request) with
  | some e => rfl
  | none =>
    have hsame : admitted scheme request after.objects = .ok request := by
      have hd := hclean hfirst
      unfold Run.held at hd
      unfold admitted
      split
      · rename_i hafter
        rw [hafter] at hd
        cases hd
      · rfl
    dsimp only
    rw [hsame]
    rfl

end MutatingDispatch

/-! ## 3. Either way -/

open ValidatingDispatch

theorem Script.Steady.ending {script : Script} {request : Request} {invocation : Invocation}
    {reply : Except ClientError Review} (h : script.Steady request invocation reply)
    (hk : invocation.kind.isComplete = true) :
    script.ending request (invocation.ofKind .validating) .relabel = script.alone request invocation := by
  obtain ⟨objects, hobjects, -⟩ := (Versioned.submitted request).convertTo_relabel hk
  unfold Script.ending Versioned.ofRequest
  have hkind : (invocation.ofKind .validating).kind = invocation.kind := rfl
  rw [hkind, hobjects]
  exact h.abort?_eq _ _ _ _

/-- **The two dispatchers apply one policy.**  Take webhooks that give the same answers whatever they are
sent, without patches, once as mutating and once as validating ones.  Called one after another they end the
request with the error of the first that ends it by itself.  Called at the same time, in whatever
interleaving, they let it pass just as well, and else end it with the error of one that ends it by
itself. -/
theorem dispatchers_agree {mutator : Caller σ} {validator : Caller τ} {script : Script}
    {fit : σ → Prop} {suit : τ → Prop} (hm : mutator.Follows script fit)
    (hv : validator.Follows script suit) {scheme : Scheme} (hconvert : scheme.convert = .relabel)
    (request : Request) {invocations : List Invocation}
    (hcomplete : ∀ i ∈ invocations, i.kind.isComplete = true)
    (hsteady : ∀ i ∈ invocations, ∃ reply, script.Steady request i reply)
    {world : σ} (hw : fit world) {site : τ} (hs : suit site) (tally other : Tally) :
    let sequential := (MutatingDispatch.dispatch mutator scheme request tally
      (invocations.map (·.ofKind .mutating)) world).verdict
    let alone := fun i => (MutatingDispatch.dispatch mutator scheme request tally
      [Invocation.ofKind i .mutating] world).verdict
    (∀ e, sequential = .error e → ∃ earlier i later, invocations = earlier ++ i :: later ∧
      (∀ j ∈ earlier, alone j = .ok ()) ∧ alone i = .error e) ∧
    ∀ after, ComesTo validator scheme request other (invocations.map (·.ofKind .validating)) site
        after →
      (sequential = .ok () ↔ after.verdict = .ok ()) ∧
      ∀ e, after.verdict = .error e → ∃ i ∈ invocations, alone i = .error e := by
  intro sequential alone
  have hsequential : sequential =
      (invocations.findSome? (script.alone request)).elim (.ok ()) .error :=
    MutatingDispatch.verdict_steady hm hconvert hcomplete hsteady hw tally
  have halone : ∀ i ∈ invocations, alone i = (script.alone request i).elim (.ok ()) .error := by
    intro i hi
    have hone : ∀ j ∈ [i], j ∈ invocations := by simpa using hi
    have h : alone i = ([i].findSome? (script.alone request)).elim (.ok ()) .error :=
      MutatingDispatch.verdict_steady hm hconvert (fun j hj => hcomplete j (hone j hj))
        (fun j hj => hsteady j (hone j hj)) hw tally
    simpa using h
  have hok : ∀ found : Option StatusError,
      found.elim (.ok ()) .error = (.ok () : Except StatusError Unit) ↔ found = none := by
    intro found
    cases found <;> simp
  have herror : ∀ (found : Option StatusError) e,
      found.elim (.ok ()) .error = (.error e : Except StatusError Unit) ↔ found = some e := by
    intro found e
    cases found <;> simp
  refine ⟨fun e he => ?_, fun after hafter => ?_⟩
  · rw [hsequential, herror] at he
    obtain ⟨earlier, i, later, rfl, hi, hearlier⟩ := List.findSome?_eq_some_iff.1 he
    refine ⟨earlier, i, later, rfl, fun j hj => ?_, ?_⟩
    · rw [halone j (by simp [hj]), hok]
      exact hearlier j hj
    · rw [halone i (by simp), herror]
      exact hi
  · obtain ⟨hpass, hend⟩ := verdict_of_comesTo hv hs hafter
    rw [hconvert] at hpass hend
    have hending : ∀ i ∈ invocations, script.ending request (i.ofKind .validating) .relabel =
        script.alone request i := by
      intro i hi
      obtain ⟨reply, hreply⟩ := hsteady i hi
      exact hreply.ending (hcomplete i hi)
    refine ⟨?_, fun e he => ?_⟩
    · rw [hsequential, hok, hpass, List.findSome?_eq_none_iff, List.forall_mem_map]
      exact forall₂_congr fun i hi => by rw [hending i hi]
    · obtain ⟨_, hm, he⟩ := hend e he
      obtain ⟨i, hi, rfl⟩ := List.mem_map.1 hm
      refine ⟨i, hi, ?_⟩
      rw [halone i hi, herror, ← hending i hi]
      exact he

/-! ### a pod behind a guard -/

open MutatingDispatch

/-- Nobody can be reached but a guard, who says no. -/
def guarded : Script where
  refusal _ := none
  reply hook _ :=
    if hook.name = "guard" then .ok {
      apiVersion := Review.version
      kind := Review.kindName
      response := some { uid := "req-uid", allowed := false } }
    else .error (.connect "webhook.test:80" "connection refused")

/-- A webhook for pods that may be passed over, and a guard. -/
def posts : List Invocation :=
  [{ podInvocation with
      webhook := { Webhook.bare "porter" .mutating with failurePolicy := .ignore } },
    { podInvocation with webhook := .bare "guard" .mutating }]

/-- The guard has his way with either kind of webhook. -/
theorem dispatchers_agree_guarded_pod :
    (MutatingDispatch.dispatch guarded.caller plainScheme podCreation ⟨.empty, {}, []⟩
      (posts.map (·.ofKind .mutating)) ()).verdict = .error (.webhookDenied "guard" none) ∧
    ∀ after, ComesTo guarded.caller plainScheme podCreation ⟨.empty, {}, []⟩
      (posts.map (·.ofKind .validating)) () after → after.verdict ≠ .ok () := by
  have hdenied : (MutatingDispatch.dispatch guarded.caller plainScheme podCreation ⟨.empty, {}, []⟩
      (posts.map (·.ofKind .mutating)) ()).verdict = .error (.webhookDenied "guard" none) := by
    decide +kernel
  have hsteady : ∀ i ∈ posts, ∃ reply, guarded.Steady podCreation i reply := by
    intro i hi
    refine ⟨guarded.reply i.webhook {}, rfl, fun _ _ _ => rfl, ?_⟩
    intro answer response ha hr
    unfold guarded at ha
    dsimp only at ha
    split at ha <;> cases ha
    cases hr
    exact ⟨rfl, rfl⟩
  have hrelabel : plainScheme.convert = .relabel := rfl
  refine ⟨hdenied, fun after hafter hok => ?_⟩
  have hpassed : (MutatingDispatch.dispatch guarded.caller plainScheme podCreation ⟨.empty, {}, []⟩
      (posts.map (·.ofKind .mutating)) ()).verdict = .ok () :=
    ((dispatchers_agree guarded.follows_caller guarded.follows_caller hrelabel podCreation (by decide)
      hsteady trivial trivial ⟨.empty, {}, []⟩ ⟨.empty, {}, []⟩).2 after hafter).1.2 hok
  rw [hdenied] at hpassed
  cases hpassed

end Admission
