import Admission.Dispatch.Effect
import Admission.Dispatch.Versioned

/-!
# Calling one webhook

A webhook is called only if it may be: for a dry run it must have declared that it then has no side
effects, and it must understand the version of reviews spoken here.  Then it needs a client.  Then it
is asked, and its answer must count.  A call that got as far as asking is measured, unless its answer
does not count.

How clients are got and how reviews are exchanged is given by a `Caller`, over a state of the world
that every exchange may change.
-/

namespace Admission

/-- The outcome of an exchange and how long it took. -/
structure Exchanged where
  reply : Except ClientError Review
  took : Time.Span

/-- How webhooks are called. -/
structure Caller (σ : Type) where
  /-- What a client is known by. -/
  Handle : Type
  /-- The client of a webhook. -/
  connect : Webhook → σ → Except ClientError Handle × σ
  /-- Sends a review and waits for the answer, at most for a time. -/
  post : Handle → Review → Time.Span → σ → Exchanged × σ
  /-- How long to wait for a webhook that does not say. -/
  defaultTimeout : Time.Span

/-- Everything about one call. -/
structure CallReport where
  /-- The review that went out, if it came to that. -/
  sent : Option Review
  /-- What is measured, if anything: whether the webhook rejected, and how long it took. -/
  measured : Option (Bool × Time.Span)
  outcome : Except HookFailure ReviewResponse

namespace Webhook

/-- Whether the webhook may be called at all. -/
def gate (hook : Webhook) (request : Request) : Except HookFailure Unit :=
  let version : Except HookFailure Unit :=
    if hook.acceptsReview then .ok ()
    else .error (.calling hook.name (.reviewVersions hook.reviewVersions))
  if request.dryRun then
    match hook.sideEffects with
    | none => .error (.calling hook.name .sideEffectsUndeclared)
    | some effects =>
      if effects.supportsDryRun then version else .error (.status (.dryRunUnsupported hook.name))
  else version

end Webhook

namespace Caller

variable {σ : Type}

/-- Calls a webhook with the objects of a request. -/
def call (caller : Caller σ) (request : Request) (invocation : Invocation) (objects : Versioned)
    (world : σ) : CallReport × σ :=
  let hook := invocation.webhook
  match hook.gate request with
  | .error failure => (⟨none, none, .error failure⟩, world)
  | .ok () =>
    match caller.connect hook world with
    | (.error e, world) => (⟨none, none, .error (.calling hook.name (.noClient e))⟩, world)
    | (.ok client, world) =>
      let review := Review.ask request invocation objects.object objects.oldObject
      let (exchanged, world) :=
        caller.post client review (hook.timeout.getD caller.defaultTimeout) world
      match exchanged.reply with
      | .error e =>
        (⟨some review, some (true, exchanged.took),
          .error (.calling hook.name (.exchange e))⟩, world)
      | .ok reply =>
        match reply.verify request.uid hook.kind with
        | .error e =>
          (⟨some review, none, .error (.calling hook.name (.response e))⟩, world)
        | .ok response =>
          (⟨some review, some (!response.allowed, exchanged.took), .ok response⟩, world)

end Caller

namespace CallReport

/-- What a call leaves behind, whatever its outcome means for the request: the measurement, and the
annotations and warnings of an answer that counts. -/
def effects (report : CallReport) (hook : Webhook) (operation : Operation) : List Effect :=
  let measured := match report.measured with
    | some (rejected, took) => [.measure ⟨hook.name, hook.kind, operation, rejected⟩ took]
    | none => []
  let answered := match report.outcome with
    | .ok response =>
      (((response.auditAnnotations.getD ∅).fields.map fun (key, value) =>
        Effect.annotate s!"{hook.name}/{key}" value) ++
        (response.warnings.getD []).map Effect.warn)
    | .error _ => []
  measured ++ answered

end CallReport

end Admission
