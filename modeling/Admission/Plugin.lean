import Admission.Dispatch.Validating
import Admission.Snapshot

/-!
# The admission steps

An admission step waits until its webhooks are known, picks those that a request goes to, and has
them called.  Requests about webhook configurations themselves go to no webhook, so that a webhook
can never keep its own configuration from being changed.
-/

namespace Admission

/-- A step of admission: where its webhooks come from and how they are called. -/
structure Plugin (σ : Type) where
  /-- The webhooks in force, some time after a request came in. -/
  source : Time.Span → Snapshot
  namespaces : NamespaceLister
  registry : EquivalenceRegistry
  /-- How long a request waits for webhooks to be known. -/
  readyTimeout : Time.Span
  dispatch : Request → Tally → List Invocation → σ → Dispatched σ

namespace Plugin

/-- How long a request waits when nothing else is said. -/
def defaultReadyTimeout : Time.Span := .ofSeconds 10

/-- How often a waiting request looks again. -/
def pollInterval : Time.Span := .ofMilliseconds 100

/-- Whether a request is about webhook configurations. -/
def isExempt (request : Request) : Bool :=
  request.resource.group = "admissionregistration.k8s.io" &&
    (request.resource.resource = "mutatingwebhookconfigurations" ||
      request.resource.resource = "validatingwebhookconfigurations")

/-- Whether requests with an operation are looked at. -/
def handles (operation : Operation) : Bool := Operation.all.contains operation

/-- Looks every hundred milliseconds, `polls` times more, whether the webhooks are known; gives when
it stopped looking and whether they are. -/
def waitFrom (synced : Time.Span → Bool) : (polls : Nat) → Time.Span → Bool × Time.Span
  | 0, now => (synced now, now)
  | polls + 1, now =>
    if synced now then (true, now)
    else waitFrom synced polls ⟨now.nanoseconds + pollInterval.nanoseconds⟩

/-- Waits for the webhooks to be known: the last look is the first one at or after the timeout, which may
be of any length. -/
def wait (synced : Time.Span → Bool) (timeout : Time.Span) : Bool × Time.Span :=
  waitFrom synced
    ((timeout.nanoseconds + pollInterval.nanoseconds - 1) / pollInterval.nanoseconds) ⟨0⟩

/-- The calls of webhooks for a request, in the order of the webhooks; the first that errs decides. -/
def select (webhooks : List Webhook) (request : Request) (registry : EquivalenceRegistry)
    (namespaces : NamespaceLister) : Except StatusError (List Invocation) := do
  let chosen ← webhooks.mapM fun hook => hook.selectFor request registry namespaces
  return chosen.filterMap id

variable {σ : Type}

/-- Whether a request may go on to webhooks, and how long it waited for that; none if it goes to no
webhook anyway. -/
def await (plugin : Plugin σ) (request : Request) : Option (Bool × Time.Span) :=
  if !handles request.operation || isExempt request then none
  else some (wait (fun now => (plugin.source now).synced) plugin.readyTimeout)

/-- Takes a request through the step. -/
def handle (plugin : Plugin σ) (request : Request) (tally : Tally) (world : σ) : Dispatched σ :=
  let passed : Dispatched σ := ⟨.ok (), request, tally, [], world⟩
  match plugin.await request with
  | none => passed
  | some (false, _) =>
    { passed with
      verdict := .error (.forbidden request.resource.groupResource.text request.name
        "not yet ready to handle request") }
  | some (true, now) =>
    match select (plugin.source now).webhooks request plugin.registry plugin.namespaces with
    | .error e => { passed with verdict := .error e }
    | .ok [] => passed
    | .ok invocations => plugin.dispatch request tally invocations world

/-- The step of mutating webhooks. -/
def mutating (source : Time.Span → Snapshot) (namespaces : NamespaceLister) (scheme : Scheme)
    (readyTimeout : Time.Span) (caller : Caller σ) : Plugin σ where
  source := source
  namespaces := namespaces
  registry := scheme.registry
  readyTimeout := readyTimeout
  dispatch := MutatingDispatch.dispatch caller scheme

/-- The step of validating webhooks. -/
def validating (source : Time.Span → Snapshot) (namespaces : NamespaceLister) (scheme : Scheme)
    (readyTimeout : Time.Span) (caller : Caller σ)
    (scheduler : ValidatingDispatch.Scheduler) : Plugin σ where
  source := source
  namespaces := namespaces
  registry := scheme.registry
  readyTimeout := readyTimeout
  dispatch := ValidatingDispatch.dispatch caller scheme scheduler

end Plugin

end Admission
