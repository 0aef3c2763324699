import Admission.Client.Error
import Admission.Review
import Admission.Status

/-!
# How a call of a webhook fails

A webhook that could not be asked is told apart from one that said no and from faults on this side,
because only the first is subject to the webhook's failure policy.
-/

namespace Admission

/-- Why a webhook could not be asked, or its answer not be used. -/
inductive CallCause where
  /-- A dry run, and nothing is declared about side effects. -/
  | sideEffectsUndeclared
  /-- The webhook does not understand the version of reviews spoken here. -/
  | reviewVersions (accepted : List String)
  /-- No client can be built. -/
  | noClient (e : ClientError)
  /-- The exchange failed. -/
  | exchange (e : ClientError)
  /-- The answer does not count. -/
  | response (e : ResponseError)
  | other (reason : String)
  deriving DecidableEq, Repr

def CallCause.message : CallCause → String
  | .sideEffectsUndeclared => "Webhook SideEffects is nil"
  | .reviewVersions accepted =>
    s!"webhook does not accept {reviewVersion} AdmissionReview, accepted versions: " ++
      Text.quotedList accepted
  | .noClient e => s!"could not get REST client: {e.message}"
  | .exchange e => s!"failed to call webhook: {e.message}"
  | .response e => s!"received invalid webhook response: {e.message}"
  | .other reason => reason

/-- How a call fails. -/
inductive HookFailure where
  | calling (webhook : String) (cause : CallCause)
  /-- The webhook said no. -/
  | rejected (e : StatusError)
  /-- Something went wrong on this side. -/
  | status (e : StatusError)
  deriving DecidableEq, Repr

def HookFailure.message : HookFailure → String
  | .calling webhook cause => s!"failed calling webhook \"{webhook}\": {cause.message}"
  | .rejected e => e.text
  | .status e => e.text

end Admission
