import Admission.Dispatch.Effect

/-!
# What a failed call means for the request

Only a webhook that could not be asked is subject to its failure policy; a webhook that said no and
a fault on this side always end the request.  A webhook that is passed over leaves an annotation.
-/

namespace Admission

/-- What becomes of the request. -/
inductive Decision where
  /-- It goes on as if the webhook had allowed it. -/
  | ignore
  | abort (e : StatusError)
  deriving DecidableEq, Repr

namespace Policy

/-- The start of the key of the annotation that a webhook that is passed over leaves. -/
def failOpenKey : WebhookKind → String
  | .mutating => "failed-open.mutation.webhook.admission.k8s.io"
  | .validating => "failed-open.validating.webhook.admission.k8s.io"

/-- The error that ends a request when a webhook cannot be asked, whatever the cause. -/
def callingFailed (webhook : String) : StatusError :=
  .internal s!"failed calling webhook \"{webhook}\""

/-- What a failure means, and what it leaves behind. -/
def evaluate (hook : Webhook) (index : Nat) (operation : Operation) :
    HookFailure → Decision × List Effect
  | .calling _ _ =>
    if hook.failurePolicy = .ignore then
      (.ignore, [.countFailOpen ⟨hook.name, hook.kind⟩,
        .annotate (annotationKey (failOpenKey hook.kind) index) hook.name])
    else
      (.abort (callingFailed hook.name),
        [.countRejection ⟨hook.name, hook.kind, operation, .calling, 0⟩])
  | .rejected e =>
    (.abort e, [.countRejection ⟨hook.name, hook.kind, operation, .noError, e.code⟩])
  | .status e =>
    (.abort e, [.countRejection ⟨hook.name, hook.kind, operation, .internal, e.code⟩])

end Policy

end Admission
