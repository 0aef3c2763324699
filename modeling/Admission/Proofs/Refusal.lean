import Admission.Plugin
import Admission.Proofs.Dispatch.Mutating
import Admission.Proofs.Dispatch.Validating
import Admission.Proofs.Selection

/-!
# A refusal reads as a refusal

Whatever ends a request, the status that is answered has a code of at least 400, says neither nothing
nor `Success`, and has a message (`StatusError.Refuses`).  The errors made on this side are so by their
constructors; what a webhook supplies is made so by `StatusError.webhookDenied`.  No other error gets
into the verdict of an admission step (`Plugin.mutating_refuses`, `Plugin.validating_refuses`).
-/

namespace Admission

/-! ## 1. the errors -/

/-- **A status that cannot be taken for a success.** -/
structure StatusError.Refuses (e : StatusError) : Prop where
  code : 400 ≤ e.status.code
  status : e.status.status ≠ "" ∧ e.status.status ≠ Status.success
  message : e.status.message ≠ ""

namespace StatusError

theorem refuses_failure {code : Int} {reason message : String} (hc : 400 ≤ code)
    (hm : message ≠ "") : (failure code reason message).Refuses :=
  ⟨hc, ⟨by simp [failure, Status.failure], by simp [failure, Status.failure, Status.success]⟩, hm⟩

theorem refuses_internal (cause : String) : (internal cause).Refuses :=
  refuses_failure (by decide) (by simp [toString])

theorem refuses_forbidden (resource name cause : String) :
    (forbidden resource name cause).Refuses :=
  refuses_failure (by decide) (by split <;> simp [toString])

theorem refuses_notFound (resource name : String) : (notFound resource name).Refuses :=
  refuses_failure (by decide) (by simp [toString])

theorem refuses_dryRunUnsupported (webhook : String) : (dryRunUnsupported webhook).Refuses :=
  refuses_failure (by decide) (by simp [toString])

/-- **Whatever a webhook supplies with its denial, the denial refuses.** -/
theorem refuses_webhookDenied (webhook : String) (result : Option Status) :
    (webhookDenied webhook result).Refuses := by
  unfold webhookDenied
  generalize result.getD ⟨"", "", "", 0⟩ = given
  refine ⟨?_, ?_, ?_⟩
  · dsimp only
    split <;> omega
  · dsimp only
    split
    · decide
    · rename_i hgiven
      exact not_or.1 hgiven
  · dsimp only
    split
    · simp [toString]
    · split <;> simp [toString]

end StatusError

open StatusError (refuses_internal refuses_notFound refuses_webhookDenied)

/-! ## 2. one call -/

/-- The failure of a call ends the request only with an error that refuses. -/
def HookFailure.Refuses : HookFailure → Prop
  | .calling _ _ => True
  | .rejected e => e.Refuses
  | .status e => e.Refuses

/-- A call fails by not coming about, or because the webhook does not allow dry runs. -/
theorem Caller.refuses_of_call {σ : Type} (caller : Caller σ) (request : Request)
    (invocation : Invocation) (objects : Versioned) (world : σ) {failure : HookFailure}
    (h : (caller.call request invocation objects world).1.outcome = .error failure) :
    failure.Refuses := by
  unfold Caller.call at h
  dsimp only at h
  split at h
  · rename_i gated hgate
    cases h
    have hversion : ∀ {f}, (if invocation.webhook.acceptsReview then (.ok () : Except HookFailure Unit)
        else .error (.calling invocation.webhook.name
          (.reviewVersions invocation.webhook.reviewVersions))) = .error f → f.Refuses := by
      intro f hf
      split at hf <;> cases hf
      trivial
    unfold Webhook.gate at hgate
    dsimp only at hgate
    split at hgate
    · split at hgate
      · cases hgate; trivial
      · split at hgate
        · exact hversion hgate
        · cases hgate
          exact StatusError.refuses_dryRunUnsupported _
    · exact hversion hgate
  · split at h
    · cases h; trivial
    · split at h
      · cases h; trivial
      · split at h <;> cases h
        trivial

theorem CallReport.refuses_of_abort? {report : CallReport} {hook : Webhook} {e : StatusError}
    (hreport : ∀ failure, report.outcome = .error failure → failure.Refuses)
    (h : report.abort? hook = some e) : e.Refuses := by
  unfold CallReport.abort? at h
  split at h
  · split at h <;> cases h
    exact refuses_webhookDenied _ _
  · split at h <;> cases h
    exact refuses_internal _
  · rename_i hrejected
    cases h
    exact hreport _ hrejected
  · rename_i hstatus
    cases h
    exact hreport _ hstatus

/-! ## 3. conversion and patches -/

namespace Versioned

theorem refuses_of_convertObject {convert : Converter} {kind : GroupVersionKind}
    {object : Option Object} {e : StatusError} (h : convertObject convert kind object = .error e) :
    e.Refuses := by
  unfold convertObject at h
  split at h
  · cases h
  · split at h <;> cases h
    exact refuses_internal _

theorem refuses_of_convertTo {convert : Converter} {kind : GroupVersionKind} {v : Versioned}
    {e : StatusError} (h : v.convertTo convert kind = .error e) : e.Refuses := by
  unfold convertTo at h
  split at h
  · cases h
  · rcases bind_eq_error.1 h with h | ⟨_, -, h⟩
    · exact refuses_of_convertObject h
    · rcases bind_eq_error.1 h with h | ⟨_, -, h⟩
      · exact refuses_of_convertObject h
      · cases h

end Versioned

namespace Mutation

theorem refuses_of_patchOf {response : ReviewResponse} {e : StatusError}
    (h : patchOf response = .error e) : e.Refuses := by
  unfold patchOf at h
  split at h
  · cases h
  · split at h
    · cases h; exact refuses_internal _
    · split at h <;> cases h
      exact refuses_internal _

theorem refuses_of_patchObject {patch : Patch} {object : Object} {e : StatusError}
    (h : patchObject patch object = .error e) : e.Refuses := by
  unfold patchObject at h
  dsimp only at h
  split at h
  · cases h; exact refuses_internal _
  · split at h <;> cases h
    exact refuses_internal _

theorem refuses_of_amend {scheme : Scheme} {webhook : String} {patch : Patch}
    {object : Option Object} {e : StatusError} (h : amend scheme webhook patch object = .error e) :
    e.Refuses := by
  unfold amend at h
  split at h
  · cases h
  · split at h
    · cases h; exact refuses_internal _
    · rcases bind_eq_error.1 h with h | ⟨_, -, h⟩
      · exact refuses_of_patchObject h
      · cases h

theorem refuses_of_conclude {scheme : Scheme} {hook : Webhook} {report : CallReport}
    {object : Option Object} {e : StatusError}
    (hreport : ∀ failure, report.outcome = .error failure → failure.Refuses)
    (h : conclude scheme hook report object = .error e) : e.Refuses := by
  unfold conclude at h
  split at h
  · rename_i habort
    cases h
    exact CallReport.refuses_of_abort? hreport habort
  · rcases bind_eq_error.1 h with h | ⟨patch, -, h⟩
    · unfold CallReport.patch? at h
      split at h
      · split at h
        · exact refuses_of_patchOf h
        · cases h
      · cases h
    · exact refuses_of_amend h

end Mutation

/-! ## 4. the dispatches -/

namespace MutatingDispatch

variable {σ : Type} {caller : Caller σ} {scheme : Scheme} {request : Request}

theorem refuses_of_step {index : Nat} {invocation : Invocation} {run after : Run σ}
    {e : StatusError} (h : step caller scheme request index invocation run = (some e, after)) :
    e.Refuses := by
  cases hconv : (run.held request).convertTo scheme.convert invocation.kind with
  | error e' =>
    rw [step_unconvertible caller scheme request index invocation run hconv] at h
    cases h
    exact Versioned.refuses_of_convertTo hconv
  | ok objects =>
    generalize hcall : caller.call request invocation objects run.world = called
    obtain ⟨report, world⟩ := called
    have hstep := step_called caller scheme request index invocation run hconv hcall
    cases hconclude : Mutation.conclude scheme invocation.webhook report objects.object with
    | error e' =>
      rw [hconclude] at hstep
      obtain ⟨after', heq, -, -⟩ := hstep
      rw [h] at heq
      cases heq
      refine Mutation.refuses_of_conclude (fun failure hf => ?_) hconclude
      exact caller.refuses_of_call request invocation objects run.world (by rw [hcall]; exact hf)
    | ok object =>
      rw [hconclude] at hstep
      obtain ⟨after', heq, -, -, -⟩ := hstep
      rw [h] at heq
      cases heq

theorem refuses_of_steps {index : Nat} {invocations : List Invocation} {run after : Run σ}
    {e : StatusError} (h : steps caller scheme request index invocations run = (some e, after)) :
    e.Refuses := by
  induction invocations generalizing index run with
  | nil => cases h
  | cons invocation rest ih =>
    rw [steps] at h
    split at h
    · rename_i e' run' hstep
      cases h
      exact refuses_of_step hstep
    · exact ih h

/-- **A mutating dispatch ends a request only with an error that refuses.** -/
theorem refuses_of_dispatch {tally : Tally} {invocations : List Invocation} {world : σ}
    {e : StatusError}
    (h : (dispatch caller scheme request tally invocations world).verdict = .error e) :
    e.Refuses := by
  unfold dispatch at h
  split at h
  · rename_i e' run hsteps
    cases h
    exact refuses_of_steps hsteps
  · split at h
    · rename_i e' hadmitted
      cases h
      unfold admitted at hadmitted
      split at hadmitted
      · split at hadmitted
        · cases hadmitted
        · rcases bind_eq_error.1 hadmitted with hfailed | ⟨_, -, hfailed⟩
          · exact Versioned.refuses_of_convertObject hfailed
          · cases hfailed
      · cases hadmitted
    · cases h

end MutatingDispatch

namespace ValidatingDispatch

variable {σ : Type}

/-- **A validating dispatch ends a request only with an error that refuses**, whichever came first. -/
theorem refuses_of_dispatch {caller : Caller σ} {scheme : Scheme} {scheduler : Scheduler}
    {request : Request} {tally : Tally} {invocations : List Invocation} {world : σ} {e : StatusError}
    (h : (dispatch caller scheme scheduler request tally invocations world).verdict = .error e) :
    e.Refuses := by
  have hcomes := comesTo_dispatch caller scheme scheduler request tally invocations world
  generalize dispatch caller scheme scheduler request tally invocations world = after at h hcomes
  cases hcomes with
  | unprepared failed =>
    cases h
    obtain ⟨invocation, -, hfailed⟩ := prepare_error failed
    exact Versioned.refuses_of_convertTo hfailed
  | @joined crew finished =>
    obtain ⟨prepared, hprepare, hvalid, hjoined⟩ := finished.exists_valid
    -- the error came through the channel, so it is what the outcome of some call means
    obtain ⟨task, hhead⟩ := ((hvalid.decided hjoined (prepare_ok hprepare).1).first e).1 h
    obtain ⟨report, p, hcall, hp, habort⟩ :=
      (hvalid.mem_channel_iff hjoined task e).1 (List.mem_of_head? hhead)
    refine CallReport.refuses_of_abort? (fun failure hf => ?_) habort
    obtain ⟨p', -, before, rfl⟩ := hvalid.exists_call hcall
    exact caller.refuses_of_call request p'.1 p'.2 before hf

end ValidatingDispatch

/-! ## 5. the choice of webhooks -/

namespace Webhook

variable {hook : Webhook} {request : Request} {registry : EquivalenceRegistry}
  {namespaces : NamespaceLister} {e : StatusError}

theorem refuses_of_selectLabels {selector : LabelSelector} {labels : Labels}
    (h : selectLabels selector labels = .error e) : e.Refuses := by
  unfold selectLabels at h
  split at h <;> cases h
  exact refuses_internal _

theorem refuses_of_namespaceAccepts (h : hook.namespaceAccepts request namespaces = .error e) :
    e.Refuses := by
  unfold namespaceAccepts at h
  split at h
  · cases h
  · split at h
    · cases h
    · rcases bind_eq_error.1 h with h | ⟨labels, -, h⟩
      · unfold governingLabels at h
        dsimp only at h
        split at h
        · cases h
        · split at h <;> cases h
          exact refuses_notFound _ _
      · exact refuses_of_selectLabels h

theorem refuses_of_objectAccepts (h : hook.objectAccepts request = .error e) : e.Refuses := by
  have hobject : ∀ {selector object}, selectObject selector object = .error e → e.Refuses := by
    intro selector object hselect
    unfold selectObject at hselect
    split at hselect
    · exact refuses_of_selectLabels hselect
    · cases hselect
  unfold objectAccepts at h
  split at h
  · cases h
  · rcases bind_eq_error.1 h with h | ⟨accepted, -, h⟩
    · exact hobject h
    · split at h
      · cases h
      · exact hobject h

theorem SelectionFault.refuses (h : hook.SelectionFault request registry namespaces e) :
    e.Refuses := by
  cases h with
  | unknownKind named failed byNamespace byObject => exact refuses_internal _
  | namespaceSelector named failed byObject => exact refuses_of_namespaceAccepts failed
  | objectSelector named byNamespace failed => exact refuses_of_objectAccepts failed

end Webhook

/-! ## 6. the steps of admission -/

namespace Plugin

variable {σ : Type}

/-- A step refuses a request only with errors that refuse, if its dispatch does. -/
theorem refuses_of_handle {plugin : Plugin σ}
    (hdispatch : ∀ {request tally invocations world e},
      (plugin.dispatch request tally invocations world).verdict = .error e → e.Refuses)
    {request : Request} {tally : Tally} {world : σ} {e : StatusError}
    (h : (plugin.handle request tally world).verdict = .error e) : e.Refuses := by
  unfold handle at h
  dsimp only at h
  split at h
  · cases h
  · cases h
    exact StatusError.refuses_forbidden _ _ _
  · split at h
    · rename_i e' hselect
      cases h
      obtain ⟨earlier, hook, later, -, -, hfault⟩ := select_eq_error.1 hselect
      exact (Webhook.selectFor_eq_error.1 hfault).refuses
    · cases h
    · exact hdispatch h

/-- **A mutating step refuses only with errors that refuse.** -/
theorem mutating_refuses {source : Time.Span → Snapshot} {namespaces : NamespaceLister}
    {scheme : Scheme} {readyTimeout : Time.Span} {caller : Caller σ} {request : Request}
    {tally : Tally} {world : σ} {e : StatusError}
    (h : ((mutating source namespaces scheme readyTimeout caller).handle
      request tally world).verdict = .error e) : e.Refuses :=
  refuses_of_handle (fun hd => MutatingDispatch.refuses_of_dispatch hd) h

/-- **A validating step refuses only with errors that refuse.** -/
theorem validating_refuses {source : Time.Span → Snapshot} {namespaces : NamespaceLister}
    {scheme : Scheme} {readyTimeout : Time.Span} {caller : Caller σ}
    {scheduler : ValidatingDispatch.Scheduler} {request : Request} {tally : Tally} {world : σ}
    {e : StatusError}
    (h : ((validating source namespaces scheme readyTimeout caller scheduler).handle
      request tally world).verdict = .error e) : e.Refuses :=
  refuses_of_handle (fun hd => ValidatingDispatch.refuses_of_dispatch hd) h

end Plugin

end Admission
