import Admission.Dispatch.Validating
import Admission.Proofs.Lists

/-!
# What the outcome of a call means

A call that came to an end lets the request pass or ends it, and which of the two depends on its
outcome and on the failure policy alone: `CallReport.abort?` says it in four lines.  The messages
among the writes of a validating task are exactly that error, at most one of them
(`messages_taskEffects`).
-/

namespace Admission

/-! ## 1. Sending -/

/-- The gate is closed for want of a declaration, because of what is declared, or for want of a version. -/
theorem Webhook.gate_cases {hook : Webhook} {request : Request} {failure : HookFailure}
    (h : hook.gate request = .error failure) :
    failure = .calling hook.name .sideEffectsUndeclared ∨
      failure = .status (.dryRunUnsupported hook.name) ∨
      failure = .calling hook.name (.reviewVersions hook.reviewVersions) := by
  unfold gate at h
  dsimp only at h
  split at h
  · split at h
    · cases h
      exact .inl rfl
    · split at h
      · split at h
        · cases h
        · cases h
          exact .inr (.inr rfl)
      · cases h
        exact .inr (.inl rfl)
  · split at h
    · cases h
    · cases h
      exact .inr (.inr rfl)

namespace Caller

variable {σ : Type} (caller : Caller σ) (request : Request) (invocation : Invocation)
  (objects : Versioned) (world : σ)

/-- **How far a call gets**, and what has come of it by then. -/
inductive Course : CallReport × σ → Prop where
  /-- The webhook may not be called, or not with the reviews spoken here. -/
  | closed {failure} (gate : invocation.webhook.gate request = .error failure) :
      Course (⟨none, none, .error failure⟩, world)
  /-- There is no client. -/
  | clientless {e next} (gate : invocation.webhook.gate request = .ok ())
      (connect : caller.connect invocation.webhook world = (.error e, next)) :
      Course (⟨none, none, .error (.calling invocation.webhook.name (.noClient e))⟩, next)
  /-- The exchange fails. -/
  | unreached {handle next exchanged after e} (gate : invocation.webhook.gate request = .ok ())
      (connect : caller.connect invocation.webhook world = (.ok handle, next))
      (post : caller.post handle (Review.ask request invocation objects.object objects.oldObject)
        (invocation.webhook.timeout.getD caller.defaultTimeout) next = (exchanged, after))
      (reply : exchanged.reply = .error e) :
      Course (⟨some (Review.ask request invocation objects.object objects.oldObject),
        some (true, exchanged.took), .error (.calling invocation.webhook.name (.exchange e))⟩, after)
  /-- The answer does not count. -/
  | unverified {handle next exchanged after answer e}
      (gate : invocation.webhook.gate request = .ok ())
      (connect : caller.connect invocation.webhook world = (.ok handle, next))
      (post : caller.post handle (Review.ask request invocation objects.object objects.oldObject)
        (invocation.webhook.timeout.getD caller.defaultTimeout) next = (exchanged, after))
      (reply : exchanged.reply = .ok answer)
      (verify : answer.verify request.uid invocation.webhook.kind = .error e) :
      Course (⟨some (Review.ask request invocation objects.object objects.oldObject), none,
        .error (.calling invocation.webhook.name (.response e))⟩, after)
  | answered {handle next exchanged after answer response}
      (gate : invocation.webhook.gate request = .ok ())
      (connect : caller.connect invocation.webhook world = (.ok handle, next))
      (post : caller.post handle (Review.ask request invocation objects.object objects.oldObject)
        (invocation.webhook.timeout.getD caller.defaultTimeout) next = (exchanged, after))
      (reply : exchanged.reply = .ok answer)
      (verify : answer.verify request.uid invocation.webhook.kind = .ok response) :
      Course (⟨some (Review.ask request invocation objects.object objects.oldObject),
        some (!response.allowed, exchanged.took), .ok response⟩, after)

theorem course_call : caller.Course request invocation objects world
    (caller.call request invocation objects world) := by
  unfold Caller.call
  dsimp only
  split
  · rename_i failure hgate
    exact .closed hgate
  · rename_i hgate
    split
    · rename_i e next hconnect
      exact .clientless hgate hconnect
    · rename_i handle next hconnect
      split
      · rename_i e hreply
        exact .unreached hgate hconnect rfl hreply
      · rename_i answer hreply
        split
        · rename_i e hverify
          exact .unverified hgate hconnect rfl hreply hverify
        · rename_i response hverify
          exact .answered hgate hconnect rfl hreply hverify

variable {caller request invocation objects world} in
theorem Course.call_eq {result : CallReport × σ}
    (h : caller.Course request invocation objects world result) :
    caller.call request invocation objects world = result := by
  unfold call
  cases h with
  | closed gate => simp only [gate]
  | clientless gate connect => simp only [gate, connect]
  | unreached gate connect post reply => simp only [gate, connect, post, reply]
  | unverified gate connect post reply verify => simp only [gate, connect, post, reply, verify]
  | answered gate connect post reply verify => simp only [gate, connect, post, reply, verify]

/-- What a call sends, if it sends anything, is the review of the objects it was given. -/
theorem sent_call {review : Review}
    (h : (caller.call request invocation objects world).1.sent = some review) :
    review = Review.ask request invocation objects.object objects.oldObject := by
  have hcourse := caller.course_call request invocation objects world
  generalize caller.call request invocation objects world = result at h hcourse
  cases hcourse <;> (cases h <;> rfl)

end Caller

namespace ValidatingDispatch

variable {σ : Type} (caller : Caller σ) (request : Request)

theorem callAll_append (xs ys : List (Invocation × Versioned)) (world : σ) :
    callAll caller request (xs ++ ys) world =
      ((callAll caller request xs world).1 ++
          (callAll caller request ys (callAll caller request xs world).2).1,
        (callAll caller request ys (callAll caller request xs world).2).2) := by
  induction xs generalizing world with
  | nil => rfl
  | cons x xs ih => simp only [List.cons_append, callAll, ih]

theorem length_callAll (xs : List (Invocation × Versioned)) (world : σ) :
    (callAll caller request xs world).1.length = xs.length := by
  induction xs generalizing world with
  | nil => rfl
  | cons x xs ih => simp [callAll, ih]

/-- **What holds of every call in a world that fits holds of all calls**, if every call leaves a world
that fits. -/
theorem callAll_forall₂ {caller : Caller σ} {request : Request} (fit : σ → Prop)
    (rel : Invocation × Versioned → CallReport → Prop)
    (hcall : ∀ p world, fit world → rel p (caller.call request p.1 p.2 world).1 ∧
      fit (caller.call request p.1 p.2 world).2)
    (xs : List (Invocation × Versioned)) (world : σ) (hw : fit world) :
    List.Forall₂ rel xs (callAll caller request xs world).1 := by
  induction xs generalizing world with
  | nil => exact .nil
  | cons p rest ih =>
    obtain ⟨hrel, hnext⟩ := hcall p world hw
    exact .cons hrel (ih _ hnext)

theorem getElem?_callAll {xs : List (Invocation × Versioned)} {world : σ} {i : Nat}
    {p : Invocation × Versioned} {report : CallReport} (hp : xs[i]? = some p)
    (hr : (callAll caller request xs world).1[i]? = some report) :
    ∃ before, report = (caller.call request p.1 p.2 before).1 := by
  have hall := callAll_forall₂ (fun _ => True)
    (fun p report => ∃ before, report = (caller.call request p.1 p.2 before).1)
    (fun _ world _ => ⟨⟨world, rfl⟩, trivial⟩) xs world trivial
  obtain ⟨hi, rfl⟩ := List.getElem?_eq_some_iff.1 hp
  obtain ⟨hj, rfl⟩ := List.getElem?_eq_some_iff.1 hr
  exact hall.get hi hj

end ValidatingDispatch

/-! ## 2. Passing and ending -/

namespace CallReport

/-- **The error that ends the request, if the outcome ends it.**  A denial, a fault on this side and,
unless the webhook is to be passed over, a call that failed. -/
def abort? (report : CallReport) (hook : Webhook) : Option StatusError :=
  match report.outcome with
  | .ok response =>
    if response.allowed then none else some (.webhookDenied hook.name response.result)
  | .error (.calling _ _) =>
    if hook.failurePolicy = .ignore then none else some (Policy.callingFailed hook.name)
  | .error (.rejected e) => some e
  | .error (.status e) => some e

/-- Whether the call went well or failed open. -/
def Passes (report : CallReport) (hook : Webhook) : Prop :=
  (∃ response, report.outcome = .ok response ∧ response.allowed = true) ∨
    ∃ webhook cause, report.outcome = .error (.calling webhook cause) ∧ hook.failurePolicy = .ignore

theorem abort?_eq_none_iff {report : CallReport} {hook : Webhook} :
    report.abort? hook = none ↔ report.Passes hook := by
  unfold abort? Passes
  cases report.outcome with
  | ok response => simp
  | error failure => cases failure <;> simp

theorem abort?_of_denied {report : CallReport} {response : ReviewResponse} (hook : Webhook)
    (h : report.outcome = .ok response) (hd : response.allowed = false) :
    report.abort? hook = some (.webhookDenied hook.name response.result) := by
  simp [abort?, h, hd]

end CallReport

/-! ## 3. Messages -/

namespace Effect

/-- The message that a write puts into the channel of a dispatch, if it is one. -/
def message? : Effect → Option StatusError
  | .fail e => some e
  | _ => none

/-- The messages among some writes. -/
def messages (effects : List Effect) : List StatusError := effects.filterMap message?

@[simp] theorem messages_nil : messages [] = [] := rfl

@[simp] theorem messages_append (xs ys : List Effect) :
    messages (xs ++ ys) = messages xs ++ messages ys :=
  List.filterMap_append

theorem errors_applyAll (effects : List Effect) (tally : Tally) :
    (applyAll tally effects).errors = tally.errors ++ messages effects := by
  induction effects generalizing tally with
  | nil => simp [applyAll]
  | cons effect rest ih =>
    have h : (effect.apply tally).errors = tally.errors ++ messages [effect] := by
      cases effect <;> simp [apply, messages, message?]
    calc (applyAll tally (effect :: rest)).errors
        = (effect.apply tally).errors ++ messages rest := ih _
      _ = tally.errors ++ messages ([effect] ++ rest) := by
        rw [h, messages_append, List.append_assoc]

end Effect

theorem CallReport.filterMap_effects {α : Type} {look : Effect → Option α}
    (hmeasure : ∀ labels took, look (.measure labels took) = none)
    (hannotate : ∀ key value, look (.annotate key value) = none)
    (hwarn : ∀ text, look (.warn text) = none) (report : CallReport) (hook : Webhook)
    (operation : Operation) : (report.effects hook operation).filterMap look = [] := by
  rw [List.filterMap_eq_nil_iff]
  intro effect h
  simp only [CallReport.effects, List.mem_append] at h
  rcases h with h | h
  · split at h
    · rw [List.mem_singleton.1 h, hmeasure]
    · cases h
  · split at h
    · rcases List.mem_append.1 h with h | h
      · obtain ⟨pair, -, rfl⟩ := List.mem_map.1 h
        exact hannotate _ _
      · obtain ⟨text, -, rfl⟩ := List.mem_map.1 h
        exact hwarn text
    · cases h

theorem CallReport.messages_effects (report : CallReport) (hook : Webhook)
    (operation : Operation) : Effect.messages (report.effects hook operation) = [] :=
  report.filterMap_effects (fun _ _ => rfl) (fun _ _ => rfl) (fun _ => rfl) hook operation

/-- **A task has at most one message**, and it is the error its outcome ends the request with. -/
theorem ValidatingDispatch.messages_taskEffects (operation : Operation) (index : Nat)
    (invocation : Invocation) (report : CallReport) :
    Effect.messages (taskEffects operation index invocation report) =
      (report.abort? invocation.webhook).toList := by
  simp only [taskEffects, Effect.messages_append, CallReport.messages_effects, List.nil_append,
    CallReport.abort?]
  cases report.outcome with
  | ok response =>
    by_cases h : response.allowed
    · simp only [h, if_true]; rfl
    · simp only [h]; rfl
  | error failure =>
    cases failure with
    | calling webhook cause =>
      by_cases h : invocation.webhook.failurePolicy = .ignore
      · simp only [Policy.evaluate, h, if_true]; rfl
      · simp only [Policy.evaluate, h, if_false]; rfl
    | rejected e => rfl
    | status e => rfl

end Admission
