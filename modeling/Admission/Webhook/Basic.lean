import Admission.Selector
import Admission.Time.Span
import Admission.Webhook.Rule

/-!
# Webhooks

A webhook as the merged configuration holds it: which requests it wants, where it is reached, and
what to do when it cannot be asked.
-/

namespace Admission

/-- What a webhook may do with an object. -/
inductive WebhookKind where
  /-- It may change the object. -/
  | mutating
  /-- It may only judge. -/
  | validating
  deriving DecidableEq, Repr, Inhabited

/-- The name of the kind among the metrics. -/
def WebhookKind.text : WebhookKind → String
  | .mutating => "admit"
  | .validating => "validating"

/-- What to do when a webhook cannot be asked. -/
inductive FailurePolicy where
  /-- Go on as if it had allowed the request. -/
  | ignore
  /-- End the request. -/
  | fail
  deriving DecidableEq, Repr, Inhabited

/-- All but `Ignore` fails. -/
def FailurePolicy.ofText (text : Option String) : FailurePolicy :=
  if text = some "Ignore" then .ignore else .fail

def FailurePolicy.text : FailurePolicy → String
  | .ignore => "Ignore"
  | .fail => "Fail"

/-- Which names of a resource the rules are held against. -/
inductive MatchPolicy where
  /-- Only the request's own. -/
  | exact
  /-- Those of equivalent resources too. -/
  | equivalent
  deriving DecidableEq, Repr, Inhabited

/-- All but `Exact` takes equivalents. -/
def MatchPolicy.ofText (text : Option String) : MatchPolicy :=
  if text = some "Exact" then .exact else .equivalent

def MatchPolicy.text : MatchPolicy → String
  | .exact => "Exact"
  | .equivalent => "Equivalent"

/-- What a webhook says of its side effects. -/
inductive SideEffects where
  | unknown
  | none
  | some
  | noneOnDryRun
  deriving DecidableEq, Repr, Inhabited

namespace SideEffects

def all : List SideEffects := [.unknown, .none, .some, .noneOnDryRun]

def text : SideEffects → String
  | .unknown => "Unknown"
  | .none => "None"
  | .some => "Some"
  | .noneOnDryRun => "NoneOnDryRun"

def ofText? (text : String) : Option SideEffects := all.find? (fun effects => effects.text = text)

/-- Whether the webhook may be called for a dry run. -/
def supportsDryRun : SideEffects → Bool
  | .none | .noneOnDryRun => true
  | .unknown | .some => false

end SideEffects

/-- A service of the cluster that a webhook runs behind. -/
structure ServiceReference where
  name : String
  namespaceName : String
  path : String
  port : Int
  deriving DecidableEq, Repr, Inhabited

/-- Where a webhook is reached and whom it is trusted by. -/
structure ClientConfig where
  /-- The webhook's name, for messages only. -/
  name : String
  url : Option String := none
  service : Option ServiceReference := none
  /-- PEM certificates to trust. -/
  caBundle : List UInt8 := []
  deriving DecidableEq, Repr, Inhabited

/-- The one version of reviews that is spoken here. -/
def reviewVersion : String := "v1"

/-- One webhook of the merged configuration. -/
structure Webhook where
  /-- `configuration/webhook/index`. -/
  uid : String
  configuration : String := ""
  name : String
  kind : WebhookKind
  rules : List Rule := []
  failurePolicy : FailurePolicy := .fail
  matchPolicy : MatchPolicy := .equivalent
  namespaceSelector : Option LabelSelector := none
  objectSelector : Option LabelSelector := none
  /-- None when nothing was declared. -/
  sideEffects : Option SideEffects := some .none
  timeout : Option Time.Span := none
  reviewVersions : List String := [reviewVersion]
  client : ClientConfig
  /-- Tells the entries of successive snapshots apart, each of which keeps a client of its own. -/
  entry : Nat := 0
  deriving DecidableEq

namespace Webhook

/-- A webhook with a name and a kind and all else by default. -/
def bare (name : String) (kind : WebhookKind) : Webhook :=
  { uid := name, name := name, kind := kind, client := { name := name } }

/-- Whether the webhook understands the version of reviews that is spoken here. -/
def acceptsReview (hook : Webhook) : Bool := hook.reviewVersions.contains reviewVersion

/-- A timeout in whole seconds; none if it is not positive. -/
def timeoutOfSeconds? (seconds : Option Int) : Option Time.Span :=
  seconds.bind fun s => if 0 < s then some (.ofSeconds s.toNat) else none

end Webhook

end Admission
