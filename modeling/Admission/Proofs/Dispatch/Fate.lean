import Admission.Proofs.Dispatch.Record

/-!
# What becomes of a webhook

A webhook that is attempted comes to one of five ends: it allowed the request, it was passed over, or it
ended the request for one of three reasons (`Fate`).  Which one it is depends on the outcome of its call, on
its failure policy and, if it allowed the request, on whether its patch can take effect
(`CallReport.fate`).  The policy decides and counts by that alone (`Policy.evaluate_eq`), so both dispatchers
count what `Fate.counted` says: nothing for a webhook that allowed the request, and for any other webhook
exactly one count (`Fate.counted_once`).
-/

namespace Admission

/-! ## 1. Five ends -/

/-- **What becomes of a webhook that is attempted.** -/
inductive Fate where
  /-- It allowed the request, and nothing is wrong with its patch. -/
  | allowed
  /-- It could not be asked and is to be passed over then. -/
  | passedOver
  /-- It could not be asked, and that ends the request. -/
  | uncallable (e : StatusError)
  | denied (e : StatusError)
  /-- Something went wrong on this side. -/
  | faulty (e : StatusError)
  deriving DecidableEq

namespace Fate

/-- The error that ends the request, if the webhook ended it. -/
def error? : Fate → Option StatusError
  | .allowed | .passedOver => none
  | .uncallable e | .denied e | .faulty e => some e

/-- What the rejection is counted under, if the webhook ended the request. -/
def rejection? (hook : Webhook) (operation : Operation) : Fate → Option RejectionLabels
  | .allowed | .passedOver => none
  | .uncallable _ => some ⟨hook.name, hook.kind, operation, .calling, 0⟩
  | .denied e => some ⟨hook.name, hook.kind, operation, .noError, e.code⟩
  | .faulty e => some ⟨hook.name, hook.kind, operation, .internal, e.code⟩

/-- What it is counted under that the webhook was passed over. -/
def failOpen? (hook : Webhook) : Fate → Option FailOpenLabels
  | .passedOver => some ⟨hook.name, hook.kind⟩
  | .allowed | .uncallable _ | .denied _ | .faulty _ => none

/-- The counts of a webhook. -/
def counted (hook : Webhook) (operation : Operation) (fate : Fate) : List Effect :=
  ((fate.failOpen? hook).map Effect.countFailOpen).toList ++
    ((fate.rejection? hook operation).map Effect.countRejection).toList

/-- **A webhook has allowed the request, or it is counted once.** -/
theorem counted_once (hook : Webhook) (operation : Operation) (fate : Fate) :
    (if fate = .allowed then 1 else 0) + (if (fate.failOpen? hook).isSome then 1 else 0) +
      (if (fate.rejection? hook operation).isSome then 1 else 0) = 1 := by
  cases fate <;> rfl

theorem isSome_rejection? (hook : Webhook) (operation : Operation) (fate : Fate) :
    (fate.rejection? hook operation).isSome = fate.error?.isSome := by
  cases fate <;> rfl

theorem shown_counted (hook : Webhook) (operation : Operation) (fate : Fate) :
    Effect.shown (fate.counted hook operation) = [] := by
  cases fate <;> rfl

end Fate

/-! ## 2. What decides -/

/-- What becomes of a webhook whose call, or the use of whose answer, failed. -/
def HookFailure.fate (hook : Webhook) : HookFailure → Fate
  | .calling _ _ =>
    if hook.failurePolicy = .ignore then .passedOver else .uncallable (Policy.callingFailed hook.name)
  | .rejected e => .denied e
  | .status e => .faulty e

/-- **What becomes of a webhook that has been called**, given the error that keeps its patch from taking
effect, if there is one. -/
def CallReport.fate (report : CallReport) (hook : Webhook) (spoilt : Option StatusError) : Fate :=
  match report.outcome with
  | .error failure => failure.fate hook
  | .ok response =>
    if response.allowed then
      match spoilt with
      | none => .allowed
      | some e => .faulty e
    else .denied (.webhookDenied hook.name response.result)

/-- The outcome of a call ends the request if the webhook does, whatever its patch. -/
theorem CallReport.abort?_eq_error? (report : CallReport) (hook : Webhook) :
    report.abort? hook = (report.fate hook none).error? := by
  unfold abort? fate
  cases report.outcome with
  | ok response => by_cases h : response.allowed = true <;> simp [h, Fate.error?]
  | error failure =>
    cases failure with
    | calling webhook cause =>
      by_cases h : hook.failurePolicy = .ignore <;> simp [h, HookFailure.fate, Fate.error?]
    | rejected e => rfl
    | status e => rfl

/-- **The policy decides and counts by what becomes of the webhook.** -/
theorem Policy.evaluate_eq (hook : Webhook) (index : Nat) (operation : Operation)
    (failure : HookFailure) :
    evaluate hook index operation failure =
      match (failure.fate hook).error? with
      | some e => (.abort e, (failure.fate hook).counted hook operation)
      | none => (.ignore, (failure.fate hook).counted hook operation ++
          [.annotate (annotationKey (failOpenKey hook.kind) index) hook.name]) := by
  cases failure with
  | calling webhook cause =>
    by_cases h : hook.failurePolicy = .ignore <;>
      simp [evaluate, HookFailure.fate, h, Fate.error?, Fate.counted, Fate.failOpen?, Fate.rejection?]
  | rejected e => rfl
  | status e => rfl

/-! ## 3. The patch of a mutating webhook -/

namespace Mutation

/-- **What becomes of a mutating webhook that has been called** with an object: its patch is to take effect on
that. -/
def fateOn (scheme : Scheme) (hook : Webhook) (report : CallReport) (object : Option Object) : Fate :=
  report.fate hook <| errorOf? do
    let patch ← report.patch?
    amend scheme hook.name patch object

theorem error?_fateOn (scheme : Scheme) (hook : Webhook) (report : CallReport)
    (object : Option Object) :
    (fateOn scheme hook report object).error? = errorOf? (conclude scheme hook report object) := by
  unfold fateOn conclude
  rw [CallReport.abort?_eq_error?]
  unfold CallReport.fate CallReport.patch?
  cases report.outcome with
  | error failure =>
    dsimp only
    cases (failure.fate hook).error? <;> rfl
  | ok response =>
    dsimp only
    by_cases ha : response.allowed = true
    · rw [if_pos ha, if_pos ha, if_pos ha]
      dsimp only [Fate.error?]
      cases patchOf response >>= fun patch => amend scheme hook.name patch object <;> rfl
    · rw [if_neg ha, if_neg ha]
      rfl

end Mutation

end Admission
