import Admission.Proofs.Dispatch.Fidelity
import Admission.Proofs.Dispatch.Script
import Admission.Proofs.Dispatch.TwoRuns

/-!
# Why a call failed does not show

Two dispatches of one request whose calls are alike come to the same, as far as the client can tell: the
same verdict, the same object, the same annotations and warnings (`causes_do_not_show`).  For mutating
webhooks the two runs hold the same between any two webhooks (`Run.Twin`), so the next webhooks are called
with the same objects.  For validating webhooks the writes that show are the same for each task, so they
are the same altogether when the tasks make them in the same order (`Crew.order`).

`Caller.Unanswered` lists the causes there are.
-/

namespace Admission

variable {σ τ : Type}

/-! ## 1. The causes -/

/-- **Why a webhook has no answer that counts.** -/
inductive Caller.Unanswered (caller : Caller σ) (request : Request) (invocation : Invocation)
    (objects : Versioned) (world : σ) : Prop where
  /-- A dry run, and nothing is declared about side effects. -/
  | undeclared (dry : request.dryRun = true) (nothing : invocation.webhook.sideEffects = none)
  /-- The webhook may be called for the request, but does not understand its reviews. -/
  | unversioned (may : request.dryRun = true →
        ∃ effects ∈ invocation.webhook.sideEffects, effects.supportsDryRun = true)
      (versions : reviewVersion ∉ invocation.webhook.reviewVersions)
  /-- There is no client. -/
  | clientless {e next} (gate : invocation.webhook.gate request = .ok ())
      (connect : caller.connect invocation.webhook world = (.error e, next))
  /-- The exchange fails. -/
  | unreached {handle next exchanged after e} (gate : invocation.webhook.gate request = .ok ())
      (connect : caller.connect invocation.webhook world = (.ok handle, next))
      (post : caller.post handle (Review.ask request invocation objects.object objects.oldObject)
        (invocation.webhook.timeout.getD caller.defaultTimeout) next = (exchanged, after))
      (reply : exchanged.reply = .error e)
  /-- The answer does not count: it is absent, for another request, of another kind, or with a patch that
  is of another type or that the webhook may not give. -/
  | unverified {handle next exchanged after answer e}
      (gate : invocation.webhook.gate request = .ok ())
      (connect : caller.connect invocation.webhook world = (.ok handle, next))
      (post : caller.post handle (Review.ask request invocation objects.object objects.oldObject)
        (invocation.webhook.timeout.getD caller.defaultTimeout) next = (exchanged, after))
      (reply : exchanged.reply = .ok answer)
      (verify : answer.verify request.uid invocation.webhook.kind = .error e)

/-- The gate is closed to a webhook as one that cannot be asked for two causes. -/
theorem Webhook.gate_calling_iff {hook : Webhook} {request : Request} :
    (∃ webhook cause, hook.gate request = .error (.calling webhook cause)) ↔
      (request.dryRun = true ∧ hook.sideEffects = none) ∨
      ((request.dryRun = true → ∃ effects ∈ hook.sideEffects, effects.supportsDryRun = true) ∧
        reviewVersion ∉ hook.reviewVersions) := by
  unfold gate acceptsReview
  by_cases hv : reviewVersion ∈ hook.reviewVersions <;> cases request.dryRun <;>
    cases hook.sideEffects with
  | none => simp [hv]
  | some effects => cases hs : effects.supportsDryRun <;> simp [hv, hs]

/-- **A call fails for these causes and no others.** -/
theorem Caller.failed_call_iff {caller : Caller σ} {request : Request} {invocation : Invocation}
    {objects : Versioned} {world : σ} :
    (caller.call request invocation objects world).1.Failed ↔
      caller.Unanswered request invocation objects world := by
  constructor
  · intro h
    have hcourse := caller.course_call request invocation objects world
    generalize caller.call request invocation objects world = result at h hcourse
    cases hcourse with
    | closed gate =>
      obtain ⟨webhook, cause, h⟩ := h
      cases h
      obtain ⟨dry, nothing⟩ | ⟨may, versions⟩ := Webhook.gate_calling_iff.1 ⟨_, _, gate⟩
      · exact .undeclared dry nothing
      · exact .unversioned may versions
    | clientless gate connect => exact .clientless gate connect
    | unreached gate connect post reply => exact .unreached gate connect post reply
    | unverified gate connect post reply verify => exact .unverified gate connect post reply verify
    | answered =>
      obtain ⟨_, _, h⟩ := h
      cases h
  · intro h
    cases h with
    | undeclared dry nothing =>
      obtain ⟨_, _, gate⟩ := Webhook.gate_calling_iff.2 (.inl ⟨dry, nothing⟩)
      rw [(Course.closed gate).call_eq]
      exact ⟨_, _, rfl⟩
    | unversioned may versions =>
      obtain ⟨_, _, gate⟩ := Webhook.gate_calling_iff.2 (.inr ⟨may, versions⟩)
      rw [(Course.closed gate).call_eq]
      exact ⟨_, _, rfl⟩
    | clientless gate connect =>
      rw [(Course.clientless gate connect).call_eq]
      exact ⟨_, _, rfl⟩
    | unreached gate connect post reply =>
      rw [(Course.unreached gate connect post reply).call_eq]
      exact ⟨_, _, rfl⟩
    | unverified gate connect post reply verify =>
      rw [(Course.unverified gate connect post reply verify).call_eq]
      exact ⟨_, _, rfl⟩

/-! ## 2. Mutating webhooks -/

/-- **Callers that differ at most in why calls fail.**  Webhooks that are paired mean the same to a
dispatch.  In worlds that correspond, calls of them with the same objects are alike, and leave worlds that
correspond. -/
structure Caller.Twins (left : Caller σ) (right : Caller τ) (request : Request)
    (paired : Invocation → Invocation → Prop) (corresponds : σ → τ → Prop) : Prop where
  role : ∀ {i j}, paired i j → i.SameRole j
  alike : ∀ {i j v w}, paired i j → corresponds v w → ∀ objects,
    (left.call request i objects v).1.Alike (right.call request j objects w).1
  world : ∀ {i j v w}, paired i j → corresponds v w → ∀ objects,
    corresponds (left.call request i objects v).2 (right.call request j objects w).2

theorem Caller.Follows.twins {left : Caller σ} {right : Caller τ} {script other : Script}
    {fit : σ → Prop} {suit : τ → Prop} (hl : left.Follows script fit) (hr : right.Follows other suit)
    {request : Request} {paired : Invocation → Invocation → Prop}
    (hrole : ∀ {i j}, paired i j → i.SameRole j)
    (halike : ∀ {i j}, paired i j → ∀ objects,
      (CallReport.mk none none (script.call request i objects).2).Alike
        (CallReport.mk none none (other.call request j objects).2)) :
    left.Twins right request paired fun v w => fit v ∧ suit w where
  role := hrole
  alike := by
    intro i j v w hp ⟨hv, hw⟩ objects
    have h := halike hp objects
    rw [← (hl.call hv request i objects).1, ← (hr.call hw request j objects).1] at h
    exact h
  world := by
    intro i j v w _ ⟨hv, hw⟩ objects
    exact ⟨(hl.call hv request i objects).2, (hr.call hw request j objects).2⟩

namespace MutatingDispatch

variable {corresponds : σ → τ → Prop} {left : Caller σ} {right : Caller τ} (scheme : Scheme)
  {request : Request} {paired : Invocation → Invocation → Prop}

/-- **Runs that cannot be told apart**: they hold the same, have the same on record, and their calls were
alike. -/
structure Run.Twin (corresponds : σ → τ → Prop) (a : Run σ) (b : Run τ) : Prop where
  objects : a.objects = b.objects
  record : a.tally.record = b.tally.record
  reports : List.Forall₂ CallReport.Alike a.reports b.reports
  world : corresponds a.world b.world

/-- **One step keeps runs alike**, and ends both or neither, with the same error. -/
theorem Run.Twin.step {a : Run σ} {b : Run τ} (h : a.Twin corresponds b)
    (ht : left.Twins right request paired corresponds) {i j : Invocation} (hp : paired i j)
    (index : Nat) :
    (MutatingDispatch.step left scheme request index i a).1 =
        (MutatingDispatch.step right scheme request index j b).1 ∧
      (MutatingDispatch.step left scheme request index i a).2.Twin corresponds
        (MutatingDispatch.step right scheme request index j b).2 := by
  have hrole := ht.role hp
  have hheld : a.held request = b.held request := by unfold Run.held; rw [h.objects]
  cases hc : (a.held request).convertTo scheme.convert i.kind with
  | error e =>
    rw [step_unconvertible left scheme request index i a hc,
      step_unconvertible right scheme request index j b (by rw [← hheld, ← hrole.kind, hc])]
    exact ⟨rfl, h⟩
  | ok objects =>
    have halike := ht.alike hp h.world objects
    have hworld := ht.world hp h.world objects
    obtain ⟨stop, a', b', hs, hs', hv, hw, hturn⟩ := step_alike hc
      (by rw [← hheld, ← hrole.kind, hc]) hrole.webhook halike index index
    rw [hs, hs']
    refine ⟨rfl, hturn.objects, ?_, ?_, by rw [hv, hw]; exact hworld⟩
    · obtain ⟨effects, ⟨ha, hb⟩ | ⟨ha, hb⟩⟩ := hturn.record
      · rw [ha, hb, h.record]
      · rw [ha, hb, h.record, halike.turnNote hrole.webhook]
    · rw [hturn.left, hturn.right]
      exact List.rel_append h.reports (.cons halike .nil)

/-- **Runs alike stay so to their end.** -/
theorem Run.Twin.steps {a : Run σ} {b : Run τ} (h : a.Twin corresponds b)
    (ht : left.Twins right request paired corresponds) {xs ys : List Invocation}
    (hp : List.Forall₂ paired xs ys) (index : Nat) :
    (MutatingDispatch.steps left scheme request index xs a).1 =
        (MutatingDispatch.steps right scheme request index ys b).1 ∧
      (MutatingDispatch.steps left scheme request index xs a).2.Twin corresponds
        (MutatingDispatch.steps right scheme request index ys b).2 := by
  induction hp generalizing index a b with
  | nil => exact ⟨rfl, h⟩
  | @cons i j xs ys hp _ ih =>
    obtain ⟨hstop, hnext⟩ := h.step scheme ht hp index
    unfold MutatingDispatch.steps
    generalize MutatingDispatch.step left scheme request index i a = l at hstop hnext
    generalize MutatingDispatch.step right scheme request index j b = r at hstop hnext
    obtain ⟨stop, a'⟩ := l
    obtain ⟨stop', b'⟩ := r
    obtain rfl : stop = stop' := hstop
    cases stop with
    | some e => exact ⟨rfl, hnext⟩
    | none => exact ih hnext (index + 1)

/-- **Dispatches of callers that are twins cannot be told apart.** -/
theorem dispatch_twins (ht : left.Twins right request paired corresponds)
    {xs ys : List Invocation} (hp : List.Forall₂ paired xs ys) {v : σ} {w : τ}
    (hw : corresponds v w) {tally other : Tally} (hr : tally.record = other.record) :
    let a := dispatch left scheme request tally xs v
    let b := dispatch right scheme request other ys w
    a.verdict = b.verdict ∧ a.request = b.request ∧ a.tally.record = b.tally.record ∧
      List.Forall₂ CallReport.Alike a.reports b.reports := by
  have hstart : Run.Twin corresponds ⟨none, tally, [], v⟩ ⟨none, other, [], w⟩ :=
    ⟨rfl, hr, .nil, hw⟩
  obtain ⟨hstop, hend⟩ := hstart.steps scheme ht hp 0
  unfold dispatch
  generalize MutatingDispatch.steps left scheme request 0 xs ⟨none, tally, [], v⟩ = l at hstop hend
  generalize MutatingDispatch.steps right scheme request 0 ys ⟨none, other, [], w⟩ = r at hstop hend
  obtain ⟨stop, a⟩ := l
  obtain ⟨stop', b⟩ := r
  obtain rfl : stop = stop' := hstop
  cases stop with
  | some e => exact ⟨rfl, rfl, hend.record, hend.reports⟩
  | none =>
    dsimp only
    rw [hend.objects]
    cases admitted scheme request b.objects with
    | error e => exact ⟨rfl, rfl, hend.record, hend.reports⟩
    | ok request => exact ⟨rfl, rfl, hend.record, hend.reports⟩

end MutatingDispatch

/-! ## 3. Validating webhooks -/

theorem Policy.evaluate_congr {hook other : Webhook} (hr : hook.SameRole other) (index : Nat)
    (operation : Operation) (failure : HookFailure) :
    evaluate hook index operation failure = evaluate other index operation failure := by
  cases failure <;> simp only [evaluate, hr.name, hr.kind, hr.failurePolicy]

namespace ValidatingDispatch

theorem shown_taskEffects {x y : CallReport} (h : x.Alike y) {i j : Invocation}
    (hr : i.SameRole j) (operation : Operation) (index : Nat) :
    Effect.shown (taskEffects operation index i x) =
      Effect.shown (taskEffects operation index j y) := by
  unfold taskEffects
  rw [Effect.shown_append, Effect.shown_append, h.shown_effects hr.webhook operation]
  congr 1
  rcases h with h | ⟨⟨_, _, hx⟩, _, _, hy⟩
  · simp only [h, hr.webhook.name, Policy.evaluate_congr hr.webhook]
  · simp only [hx, hy, Policy.evaluate_congr hr.webhook]
    rfl

section Twins

variable {left : Caller σ} {right : Caller τ} {scheme : Scheme} {request : Request}
  {xs ys : List Invocation} {v : σ} {w : τ} {a : Crew σ} {b : Crew τ}

/-- **Tasks whose calls are alike make the same writes**, as far as they show, if they make them in the
same order. -/
theorem Crew.Finished.shown_writes (ha : a.Finished left scheme request xs v)
    (hb : b.Finished right scheme request ys w) (hroles : List.Forall₂ Invocation.SameRole xs ys)
    (halike : ∀ task x y, (task, x) ∈ a.calls → (task, y) ∈ b.calls → x.Alike y)
    (horder : a.order Effect.isShown = b.order Effect.isShown) :
    Effect.shown (a.writes.map (·.2)) = Effect.shown (b.writes.map (·.2)) := by
  refine ha.filter_writes hb Function.injective_id (fun i => ?_) (fun i p q x y hp hq hx hy => ?_)
    (by rw [horder, List.map_id])
  · rw [id, List.getElem?_eq_none_iff, List.getElem?_eq_none_iff, hroles.length_eq]
  · obtain ⟨hi, rfl⟩ := List.getElem?_eq_some_iff.1 hp
    obtain ⟨hj, rfl⟩ := List.getElem?_eq_some_iff.1 hq
    exact shown_taskEffects (halike i x y hx hy) (hroles.get hi hj) _ i

theorem prepare_eq_error_iff (hkinds : List.Forall₂ (fun i j : Invocation => i.kind = j.kind) xs ys)
    {e : StatusError} :
    prepare scheme request xs = .error e ↔ prepare scheme request ys = .error e := by
  induction hkinds with
  | nil => exact Iff.rfl
  | cons hkind _ ih =>
    rw [prepare_cons, prepare_cons, bind_eq_error, bind_eq_error, hkind]
    simp only [bind_eq_error, ih, pure, Except.pure, reduceCtorEq, and_false, exists_false, or_false]

theorem prepare_twins {paired : Invocation → Invocation → Prop} {corresponds : σ → τ → Prop}
    (ht : left.Twins right request paired corresponds) (hp : List.Forall₂ paired xs ys)
    {ps qs : List (Invocation × Versioned)} (hps : prepare scheme request xs = .ok ps)
    (hqs : prepare scheme request ys = .ok qs) :
    List.Forall₂ (fun p q => paired p.1 q.1 ∧ p.2 = q.2) ps qs := by
  induction hp generalizing ps qs with
  | nil => cases hps; cases hqs; exact .nil
  | cons hpair _ ih =>
    rw [prepare_cons] at hps hqs
    obtain ⟨objects, ho, hps⟩ := bind_eq_ok.1 hps
    obtain ⟨rest, hrest, hps⟩ := bind_eq_ok.1 hps
    obtain ⟨objects', ho', hqs⟩ := bind_eq_ok.1 hqs
    obtain ⟨rest', hrest', hqs⟩ := bind_eq_ok.1 hqs
    cases hps
    cases hqs
    rw [(ht.role hpair).kind, ho'] at ho
    cases ho
    exact .cons ⟨hpair, rfl⟩ (ih hrest hrest')

theorem callAll_twins {paired : Invocation → Invocation → Prop} {corresponds : σ → τ → Prop}
    (ht : left.Twins right request paired corresponds) {ps qs : List (Invocation × Versioned)}
    (hp : List.Forall₂ (fun p q => paired p.1 q.1 ∧ p.2 = q.2) ps qs) (hw : corresponds v w) :
    List.Forall₂ CallReport.Alike (callAll left request ps v).1 (callAll right request qs w).1 := by
  induction hp generalizing v w with
  | nil => exact .nil
  | @cons p q ps qs hpair _ ih =>
    obtain ⟨hpair, hobjects⟩ := hpair
    have halike := ht.alike hpair hw p.2
    have hnext := ht.world hpair hw p.2
    rw [hobjects] at halike hnext
    refine .cons (hobjects ▸ halike) (ih (hobjects ▸ hnext))

/-- **Calls of callers that are twins are alike** if the tasks make them in the same order. -/
theorem Crew.Finished.alike {paired : Invocation → Invocation → Prop} {corresponds : σ → τ → Prop}
    (ht : left.Twins right request paired corresponds) (hp : List.Forall₂ paired xs ys)
    (hw : corresponds v w) (ha : a.Finished left scheme request xs v)
    (hb : b.Finished right scheme request ys w)
    (horder : a.calls.map (·.1) = b.calls.map (·.1)) :
    ∀ task x y, (task, x) ∈ a.calls → (task, y) ∈ b.calls → x.Alike y := by
  obtain ⟨prepared, hprepare, hva, -⟩ := ha.exists_valid
  obtain ⟨prepared', hprepare', hvb, -⟩ := hb.exists_valid
  have hpairs := prepare_twins ht hp hprepare hprepare'
  -- the calls of both are made with the same objects, one after another
  have hreports := callAll_twins ht (forall₂_filterMap_getElem? hpairs (a.calls.map (·.1))) hw
  have hsa : (callAll left request ((a.calls.map (·.1)).filterMap (prepared[·]?)) v).1 =
      a.calls.map (·.2) := by
    rw [List.filterMap_map]
    exact congrArg Prod.fst hva.sequence
  have hsb : (callAll right request ((a.calls.map (·.1)).filterMap (prepared'[·]?)) w).1 =
      b.calls.map (·.2) := by
    rw [horder, List.filterMap_map]
    exact congrArg Prod.fst hvb.sequence
  rw [hsa, hsb] at hreports
  intro task x y hx hy
  exact rel_of_mem_of_nodup horder hva.nodup hreports hx hy

end Twins

end ValidatingDispatch

/-! ## 4. Both -/

open ValidatingDispatch

/-- **Why a call failed does not show.**  Let two callers differ at most in why calls fail.  Then mutating
dispatches of one request come to the same verdict, the same request and the same record.  Validating
dispatches are kept from the calls by the same conversions; and interleavings of the tasks that have come
to their end came to the same verdict and the same record, if their calls were alike, as they are when made
in the same order, and their writes were made in the same order.  The causes are those that
`Caller.Unanswered` lists, whatever the caller, and a call that fails for any of them leaves nothing that
shows, changes nothing, and means for the request what the failure policy says. -/
theorem causes_do_not_show {left : Caller σ} {right : Caller τ} {request : Request}
    {paired : Invocation → Invocation → Prop} {corresponds : σ → τ → Prop}
    (ht : left.Twins right request paired corresponds) (scheme : Scheme) {xs ys : List Invocation}
    (hp : List.Forall₂ paired xs ys) {v : σ} {w : τ} (hw : corresponds v w) {tally other : Tally}
    (hr : tally.record = other.record) :
    (let a := MutatingDispatch.dispatch left scheme request tally xs v
     let b := MutatingDispatch.dispatch right scheme request other ys w
     a.verdict = b.verdict ∧ a.request = b.request ∧ a.tally.record = b.tally.record ∧
       List.Forall₂ CallReport.Alike a.reports b.reports) ∧
    (∀ e, prepare scheme request xs = .error e ↔ prepare scheme request ys = .error e) ∧
    (∀ a b, Crew.Finished left scheme request xs v a → Crew.Finished right scheme request ys w b →
      (a.calls.map (·.1) = b.calls.map (·.1) →
        ∀ task x y, (task, x) ∈ a.calls → (task, y) ∈ b.calls → x.Alike y) ∧
      ((∀ task x y, (task, x) ∈ a.calls → (task, y) ∈ b.calls → x.Alike y) →
        a.order Effect.isShown = b.order Effect.isShown →
        (a.outcome request tally).verdict = (b.outcome request other).verdict ∧
        (a.outcome request tally).request = (b.outcome request other).request ∧
        (a.outcome request tally).tally.record = (b.outcome request other).tally.record)) ∧
    ∀ invocation objects world,
      ((left.call request invocation objects world).1.Failed ↔
        left.Unanswered request invocation objects world) ∧
      ((left.call request invocation objects world).1.Failed →
        Effect.shown ((left.call request invocation objects world).1.effects invocation.webhook
          request.operation) = [] ∧
        (left.call request invocation objects world).1.patch? = .ok [] ∧
        (left.call request invocation objects world).1.abort? invocation.webhook =
          if invocation.webhook.failurePolicy = .ignore then none
          else some (Policy.callingFailed invocation.webhook.name)) := by
  have hroles : List.Forall₂ Invocation.SameRole xs ys := hp.imp fun _ _ h => ht.role h
  refine ⟨MutatingDispatch.dispatch_twins scheme ht hp hw hr,
    fun e => prepare_eq_error_iff (hroles.imp fun _ _ h => h.kind), ?_, ?_⟩
  · intro a b ha hb
    refine ⟨ha.alike ht hp hw hb, fun halike horder => ?_⟩
    have hshown := ha.shown_writes hb hroles halike horder
    refine ⟨Crew.verdict_congr (fun _ => rfl) hshown, rfl, ?_⟩
    unfold Crew.outcome
    dsimp only
    rw [Effect.record_applyAll, Effect.record_applyAll, Effect.noteAll_congr hshown, hr]
  · intro invocation objects world
    refine ⟨Caller.failed_call_iff, fun hf => ⟨hf.shown_effects _ _, ?_⟩⟩
    obtain ⟨webhook, cause, h⟩ := hf
    unfold CallReport.patch? CallReport.abort?
    rw [h]
    exact ⟨rfl, rfl⟩

/-! ### a webhook that nobody answers for, or a forger -/

open MutatingDispatch

/-- Nobody can be reached. -/
def deserted : Script where
  refusal _ := none
  reply _ _ := .error (.connect "webhook.test:80" "connection refused")

/-- A forger answers, for another request. -/
def forged : Script where
  refusal _ := none
  reply _ _ := .ok {
    apiVersion := Review.version
    kind := Review.kindName
    response := some {
      uid := "another"
      allowed := true
      auditAnnotations := some (Dict.ofFields [("seen", "yes")])
      warnings := some ["trust me"]
      patch := some (Utf8.encode emptyLabels)
      patchType := some Review.jsonPatch } }

/-- A webhook for pods that may be passed over. -/
def optionalInvocation : Invocation :=
  { podInvocation with webhook := { podInvocation.webhook with failurePolicy := .ignore } }

/-- To the client a webhook that does not answer and one whose answers are forged are the same. -/
theorem causes_do_not_show_forged :
    let a := dispatch deserted.caller plainScheme podCreation ⟨.empty, {}, []⟩ [optionalInvocation] ()
    let b := dispatch forged.caller plainScheme podCreation ⟨.empty, {}, []⟩ [optionalInvocation] ()
    a.verdict = .ok () ∧ b.verdict = .ok () ∧ b.request = podCreation ∧
      a.tally.record = b.tally.record := by
  have htwins : deserted.caller.Twins forged.caller podCreation
      (fun i j => i = optionalInvocation ∧ j = optionalInvocation) (fun _ _ => True ∧ True) :=
    deserted.follows_caller.twins forged.follows_caller
      (by rintro _ _ ⟨rfl, rfl⟩; exact ⟨.refl _, rfl⟩)
      (by rintro _ _ ⟨rfl, rfl⟩ objects; exact .inr ⟨⟨_, _, rfl⟩, ⟨_, _, rfl⟩⟩)
  obtain ⟨hverdict, hrequest, hrecord, -⟩ := (causes_do_not_show htwins plainScheme
    (.cons ⟨rfl, rfl⟩ .nil) (v := ()) (w := ()) ⟨trivial, trivial⟩
    (rfl : (Tally.mk .empty {} []).record = (Tally.mk .empty {} []).record)).1
  have hok : (dispatch deserted.caller plainScheme podCreation ⟨.empty, {}, []⟩ [optionalInvocation]
      ()).verdict = .ok () := by decide +kernel
  have hsame : (dispatch deserted.caller plainScheme podCreation ⟨.empty, {}, []⟩
      [optionalInvocation] ()).request = podCreation := by decide +kernel
  exact ⟨hok, hverdict.symm.trans hok, hrequest.symm.trans hsame, hrecord⟩

end Admission
