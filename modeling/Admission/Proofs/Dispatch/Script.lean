import Admission.Proofs.Dispatch.Mutating
import Admission.Proofs.Dispatch.Validating

/-!
# Webhooks that answer by a script

What a webhook answers is often a function of the review it is sent, whatever the state of the world.  A
`Script` gives these functions, and a caller follows it in the worlds that fit (`Caller.Follows`).  Then
a call is known from the script and the objects of the request (`Script.call`), a step of a mutating
dispatch is known from that (`step_scripted`), and what a validating dispatch comes to can be read off the
script (`verdict_of_comesTo`).
-/

namespace Admission

variable {σ : Type}

/-! ## 1. Scripts -/

theorem Review.response_of_verify {answer : Review} {uid : String} {kind : WebhookKind}
    {response : ReviewResponse} (h : answer.verify uid kind = .ok response) :
    answer.response = some response := by
  unfold verify at h
  cases hr : answer.response with
  | none => rw [hr] at h; cases h
  | some found =>
    rw [hr] at h
    dsimp only at h
    split at h
    · cases h
    · split at h
      · cases h
      · split at h
        · cases h
        · split at h <;> cases h
          rfl

/-- What comes of asking webhooks. -/
structure Script where
  /-- Why there is no client of a webhook, if there is none. -/
  refusal : Webhook → Option ClientError
  /-- What comes back for a review. -/
  reply : Webhook → Review → Except ClientError Review

namespace Script

variable (script : Script) (request : Request) (invocation : Invocation) (objects : Versioned)

/-- What comes of the review of some objects. -/
def answer : Except HookFailure ReviewResponse :=
  match script.reply invocation.webhook
      (Review.ask request invocation objects.object objects.oldObject) with
  | .error e => .error (.calling invocation.webhook.name (.exchange e))
  | .ok reply =>
    match reply.verify request.uid invocation.webhook.kind with
    | .error e => .error (.calling invocation.webhook.name (.response e))
    | .ok response => .ok response

/-- **What a call sends**, if it comes to that, and its outcome. -/
def call : Option Review × Except HookFailure ReviewResponse :=
  match invocation.webhook.gate request with
  | .error failure => (none, .error failure)
  | .ok () =>
    match script.refusal invocation.webhook with
    | some e => (none, .error (.calling invocation.webhook.name (.noClient e)))
    | none => (some (Review.ask request invocation objects.object objects.oldObject),
        script.answer request invocation objects)

/-- The error that a call ends the request with, if it ends it. -/
def abort? : Option StatusError :=
  (CallReport.mk none none (script.call request invocation objects).2).abort? invocation.webhook

/-- **The error that a validating webhook ends the request with**, if it ends it: its objects do not
convert, or its call ends the request. -/
def ending (convert : Converter) : Option StatusError :=
  match Versioned.ofRequest convert request invocation.kind with
  | .error e => some e
  | .ok objects => script.abort? request invocation objects

end Script

/-- What a caller must do to follow a script, in the worlds that fit: a client is got or not as the script
says, and what comes back over it is what the script says. -/
structure Caller.Follows (caller : Caller σ) (script : Script) (fit : σ → Prop) : Prop where
  refused : ∀ {hook world e next}, fit world → caller.connect hook world = (.error e, next) →
    script.refusal hook = some e ∧ fit next
  connected : ∀ {hook world handle next}, fit world →
    caller.connect hook world = (.ok handle, next) → script.refusal hook = none ∧
      ∀ review exchanged after, caller.post handle review
          (hook.timeout.getD caller.defaultTimeout) next = (exchanged, after) →
        exchanged.reply = script.reply hook review ∧ fit after

namespace Caller.Follows

variable {caller : Caller σ} {script : Script} {fit : σ → Prop} {world : σ}

/-- **Every call is as the script says**, and leaves a world that fits. -/
theorem call (hf : caller.Follows script fit) (hw : fit world) (request : Request)
    (invocation : Invocation) (objects : Versioned) :
    ((caller.call request invocation objects world).1.sent,
        (caller.call request invocation objects world).1.outcome) =
      script.call request invocation objects ∧
    fit (caller.call request invocation objects world).2 := by
  have hcourse := caller.course_call request invocation objects world
  generalize caller.call request invocation objects world = result at hcourse ⊢
  unfold Script.call Script.answer
  cases hcourse with
  | closed gate =>
    rw [gate]
    exact ⟨rfl, hw⟩
  | clientless gate connect =>
    obtain ⟨hrefusal, hnext⟩ := hf.refused hw connect
    rw [gate, hrefusal]
    exact ⟨rfl, hnext⟩
  | unreached gate connect post reply =>
    obtain ⟨hrefusal, hposted⟩ := hf.connected hw connect
    obtain ⟨hreply, hafter⟩ := hposted _ _ _ post
    rw [gate, hrefusal, ← hreply, reply]
    exact ⟨rfl, hafter⟩
  | unverified gate connect post reply verify =>
    obtain ⟨hrefusal, hposted⟩ := hf.connected hw connect
    obtain ⟨hreply, hafter⟩ := hposted _ _ _ post
    rw [gate, hrefusal, ← hreply, reply]
    dsimp only
    rw [verify]
    exact ⟨rfl, hafter⟩
  | answered gate connect post reply verify =>
    obtain ⟨hrefusal, hposted⟩ := hf.connected hw connect
    obtain ⟨hreply, hafter⟩ := hposted _ _ _ post
    rw [gate, hrefusal, ← hreply, reply]
    dsimp only
    rw [verify]
    exact ⟨rfl, hafter⟩

end Caller.Follows

namespace Script

/-- The caller that does nothing but follow a script. -/
def caller (script : Script) : Caller Unit where
  Handle := Webhook
  connect hook world := (match script.refusal hook with
    | some e => .error e
    | none => .ok hook, world)
  post hook review _ world := (⟨script.reply hook review, ⟨0⟩⟩, world)
  defaultTimeout := ⟨0⟩

theorem follows_caller (script : Script) : script.caller.Follows script fun _ => True where
  refused := by
    intro hook world e next _ h
    unfold caller at h
    dsimp only at h
    split at h <;> cases h
    exact ⟨‹_›, trivial⟩
  connected := by
    intro hook world handle next _ h
    unfold caller at h
    dsimp only at h
    split at h <;> cases h
    refine ⟨‹_›, fun review exchanged after hpost => ?_⟩
    cases hpost
    exact ⟨rfl, trivial⟩

theorem exists_reply_of_call {script : Script} {request : Request} {invocation : Invocation}
    {objects : Versioned} {response : ReviewResponse}
    (h : (script.call request invocation objects).2 = .ok response) :
    ∃ answer, script.reply invocation.webhook
        (Review.ask request invocation objects.object objects.oldObject) = .ok answer ∧
      answer.verify request.uid invocation.webhook.kind = .ok response := by
  unfold call answer at h
  split at h
  · cases h
  · split at h
    · cases h
    · dsimp only at h
      split at h
      · cases h
      · rename_i reply hreply
        split at h
        · cases h
        · rename_i hverify
          cases h
          exact ⟨reply, hreply, hverify⟩

theorem abort?_of_call {script : Script} {request : Request} {invocation : Invocation}
    {objects : Versioned} {report : CallReport}
    (h : (report.sent, report.outcome) = script.call request invocation objects) :
    report.abort? invocation.webhook = script.abort? request invocation objects := by
  unfold Script.abort?
  rw [← h]
  rfl

end Script

/-! ## 2. Mutating webhooks -/

namespace MutatingDispatch

/-- **A webhook that answers by a script** does to a run what the reference says of the script's answer. -/
theorem step_scripted {caller : Caller σ} {script : Script} {fit : σ → Prop}
    (hf : caller.Follows script fit) {scheme : Scheme} {request : Request} {invocation : Invocation}
    {run : Run σ} (hw : fit run.world) {objects : Versioned}
    (h : (run.held request).convertTo scheme.convert invocation.kind = .ok objects) (index : Nat) :
    ∃ report after, (report.sent, report.outcome) = script.call request invocation objects ∧
      fit after.world ∧ after.reports = run.reports ++ [report] ∧
      match Mutation.conclude scheme invocation.webhook report objects.object with
      | .error e => step caller scheme request index invocation run = (some e, after) ∧
          after.objects = some objects
      | .ok object => step caller scheme request index invocation run = (none, after) ∧
          after.objects =
            some { objects with object := object, dirty := objects.dirty || report.patches } ∧
          after.tally.record = Effect.note (Effect.noteAll run.tally.record
            (report.effects invocation.webhook request.operation))
              (turnNote invocation.webhook index report) := by
  obtain ⟨hcall, hnext⟩ := hf.call hw request invocation objects
  generalize hc : caller.call request invocation objects run.world = called at hcall hnext
  obtain ⟨report, world⟩ := called
  have hstep := step_recorded caller scheme request index invocation run h hc
  cases hend : Mutation.conclude scheme invocation.webhook report objects.object with
  | error e =>
    rw [hend] at hstep
    obtain ⟨after, hs, hreports, rfl, hafter, -⟩ := hstep
    exact ⟨report, after, hcall, hnext, hreports, by rw [hend]; exact ⟨hs, hafter⟩⟩
  | ok object =>
    rw [hend] at hstep
    obtain ⟨after, hs, hreports, rfl, hafter, hrecord⟩ := hstep
    exact ⟨report, after, hcall, hnext, hreports, by rw [hend]; exact ⟨hs, hafter, hrecord⟩⟩

end MutatingDispatch

/-! ## 3. Validating webhooks -/

namespace ValidatingDispatch

variable {caller : Caller σ} {script : Script} {fit : σ → Prop} {world : σ} {scheme : Scheme}
  {request : Request} {tally : Tally} {invocations : List Invocation}

/-- **Every call of a task is as the script says**, for the request converted to the kind of its webhook. -/
theorem Crew.Finished.exists_scripted (hf : caller.Follows script fit) (hw : fit world) {crew : Crew σ}
    (h : crew.Finished caller scheme request invocations world) {task : Nat} {report : CallReport}
    (hm : (task, report) ∈ crew.calls) :
    ∃ invocation objects, invocations[task]? = some invocation ∧
      Versioned.ofRequest scheme.convert request invocation.kind = .ok objects ∧
      (report.sent, report.outcome) = script.call request invocation objects := by
  obtain ⟨prepared, hprepare, hv, -⟩ := h.exists_valid
  obtain ⟨hmap, hconvert⟩ := prepare_ok hprepare
  obtain ⟨p, hp, hcall⟩ := hv.of_calls fit
    (fun p report => (report.sent, report.outcome) = script.call request p.1 p.2)
    (fun p world hw => hf.call hw request p.1 p.2) hw hm
  refine ⟨p.1, p.2, ?_, hconvert p (List.mem_of_getElem? hp), hcall⟩
  rw [← hmap, List.getElem?_map, hp]
  rfl

theorem Crew.Finished.abort?_eq (hf : caller.Follows script fit) (hw : fit world) {crew : Crew σ}
    (h : crew.Finished caller scheme request invocations world) {task : Nat} {report : CallReport}
    {invocation : Invocation} (hm : (task, report) ∈ crew.calls)
    (hi : invocations[task]? = some invocation) :
    report.abort? invocation.webhook = script.ending request invocation scheme.convert := by
  obtain ⟨other, objects, hother, hobjects, hcall⟩ := h.exists_scripted hf hw hm
  obtain rfl : invocation = other := Option.some.inj (hi.symm.trans hother)
  unfold Script.ending
  rw [hobjects]
  exact Script.abort?_of_call hcall

/-- **The request goes on if no webhook ends it by itself, and else ends with the error of one that
does.** -/
theorem verdict_of_comesTo (hf : caller.Follows script fit) (hw : fit world) {after : Dispatched σ}
    (h : ComesTo caller scheme request tally invocations world after) :
    (after.verdict = .ok () ↔ ∀ i ∈ invocations, script.ending request i scheme.convert = none) ∧
    ∀ e, after.verdict = .error e →
      ∃ i ∈ invocations, script.ending request i scheme.convert = some e := by
  cases h with
  | @unprepared e failed =>
    obtain ⟨i, hi, he⟩ := prepare_error failed
    have hending : script.ending request i scheme.convert = some e := by
      unfold Script.ending
      rw [he]
    refine ⟨⟨fun h => by (cases h), fun h => ?_⟩, fun e' h => ?_⟩
    · rw [h i hi] at hending
      cases hending
    · cases h
      exact ⟨i, hi, hending⟩
  | @joined crew finished =>
    have hdecided := finished.decided
    have herror : ∀ e, crew.verdict = .error e →
        ∃ i ∈ invocations, script.ending request i scheme.convert = some e := by
      intro e he
      obtain ⟨task, hhead⟩ := (hdecided.first e).1 he
      obtain ⟨report, i, hc, hi, ha⟩ :=
        (hdecided.messages task e).1 (List.mem_of_mem_head? hhead)
      exact ⟨i, List.mem_of_getElem? hi, (finished.abort?_eq hf hw hc hi).symm.trans ha⟩
    refine ⟨⟨fun h i hi => ?_, fun h => ?_⟩, herror⟩
    · obtain ⟨task, hlt, rfl⟩ := List.mem_iff_getElem.1 hi
      have hcalled : task ∈ crew.calls.map (·.1) :=
        hdecided.called.mem_iff.2 (List.mem_range.2 hlt)
      obtain ⟨⟨_, report⟩, hc, rfl⟩ := List.mem_map.1 hcalled
      have hi' := List.getElem?_eq_getElem hlt
      rw [← finished.abort?_eq hf hw hc hi']
      exact hdecided.ok_iff.1 h _ report _ hc hi'
    · refine hdecided.ok_iff.2 fun task report i hc hi => ?_
      rw [finished.abort?_eq hf hw hc hi]
      exact h i (List.mem_of_getElem? hi)

end ValidatingDispatch

end Admission
