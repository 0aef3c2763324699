import Admission.Proofs.Dispatch.Fidelity
import Admission.Proofs.Dispatch.Validating

/-!
# Dry runs harm nobody

The request is a dry run, and what a webhook does when it is asked cannot be taken back.  So a webhook must
not be asked unless it has declared that it then does nothing, whatever clients there are, whatever other
webhooks answer and in whatever order the tasks take their turns.

What is asked is seen from outside: everybody who calls webhooks can be watched (`Caller.recording`), and
being watched changes nothing (`MutatingDispatch.dispatch_watched`, `ValidatingDispatch.dispatch_watched`,
`ValidatingDispatch.Crew.run_watched`).  Every entry of the log has been let through the gate, and for a dry
run that says that it is harmless.
-/

namespace Admission

variable {σ : Type}

/-! ## 1. The gate -/

namespace Webhook

/-- The webhook has declared that a dry run has no side effects. -/
def DeclaresNone (hook : Webhook) : Prop :=
  hook.sideEffects = some .none ∨ hook.sideEffects = some .noneOnDryRun

/-- The webhook has declared that it has side effects, or that nobody knows. -/
def DeclaresSome (hook : Webhook) : Prop :=
  hook.sideEffects = some .some ∨ hook.sideEffects = some .unknown

/-- The webhook has declared that a dry run has no side effects, or has declared nothing and may be passed
over. -/
def IsHarmless (hook : Webhook) : Prop :=
  hook.DeclaresNone ∨ hook.sideEffects = none ∧ hook.failurePolicy = .ignore

theorem gate_eq_ok_iff {hook : Webhook} {request : Request} :
    hook.gate request = .ok () ↔
      (request.dryRun = true → hook.DeclaresNone) ∧ hook.acceptsReview = true := by
  unfold gate DeclaresNone
  cases request.dryRun with
  | false => cases hook.acceptsReview <;> simp
  | true =>
    rcases hook.sideEffects with _ | effects
    · simp
    · cases effects <;> cases hook.acceptsReview <;> simp [SideEffects.supportsDryRun]

variable {hook : Webhook} {request : Request}

theorem gate_of_declaresSome (hdry : request.dryRun = true) (h : hook.DeclaresSome) :
    hook.gate request = .error (.status (.dryRunUnsupported hook.name)) := by
  unfold gate
  rcases h with h | h <;> simp [hdry, h, SideEffects.supportsDryRun]

theorem gate_of_undeclared (hdry : request.dryRun = true) (h : hook.sideEffects = none) :
    hook.gate request = .error (.calling hook.name .sideEffectsUndeclared) := by
  simp [gate, hdry, h]

theorem declares (hook : Webhook) :
    hook.DeclaresNone ∨ hook.DeclaresSome ∨ hook.sideEffects = none := by
  unfold DeclaresNone DeclaresSome
  rcases hook.sideEffects with _ | effects
  · simp
  · cases effects <;> simp

end Webhook

namespace Caller

variable (caller : Caller σ) {request : Request} (invocation : Invocation) (objects : Versioned)
  (world : σ)

/-- A webhook that is not let through the gate is not asked. -/
theorem call_of_gate {failure : HookFailure} (h : invocation.webhook.gate request = .error failure) :
    caller.call request invocation objects world = (⟨none, none, .error failure⟩, world) :=
  (Course.closed h).call_eq

/-- **Declared side effects end a dry run**, whatever the failure policy. -/
theorem abort?_of_declaresSome (hdry : request.dryRun = true) (h : invocation.webhook.DeclaresSome) :
    (caller.call request invocation objects world).1.abort? invocation.webhook =
      some (.dryRunUnsupported invocation.webhook.name) := by
  rw [caller.call_of_gate _ _ _ (Webhook.gate_of_declaresSome hdry h)]
  rfl

/-- A dry run goes on only after webhooks that are harmless. -/
theorem isHarmless_of_passes (hdry : request.dryRun = true)
    (h : (caller.call request invocation objects world).1.Passes invocation.webhook) :
    invocation.webhook.IsHarmless := by
  rw [← CallReport.abort?_eq_none_iff] at h
  rcases invocation.webhook.declares with hnone | hsome | hundeclared
  · exact .inl hnone
  · rw [caller.abort?_of_declaresSome _ _ _ hdry hsome] at h
    cases h
  · refine .inr ⟨hundeclared, ?_⟩
    rw [caller.call_of_gate _ _ _ (Webhook.gate_of_undeclared hdry hundeclared)] at h
    unfold CallReport.abort? at h
    dsimp only at h
    split at h
    · assumption
    · cases h

end Caller

/-! ## 2. Watching -/

/-- The reviews that went out, each with the webhook it went out to, in the order they did. -/
abbrev Log := List (Webhook × Review)

/-- What a log may hold if every entry has been let through the gate. -/
def Log.Permitted (request : Request) (log : Log) : Prop :=
  ∀ entry ∈ log, entry.1.gate request = .ok ()

theorem Log.permitted_nil (request : Request) : Log.Permitted request [] :=
  fun _ h => by cases h

theorem Log.Permitted.append {request : Request} {log more : Log} (h : log.Permitted request)
    (h' : more.Permitted request) : Log.Permitted request (log ++ more) :=
  fun entry hm => (List.mem_append.1 hm).elim (h entry) (h' entry)

/-- The same calls, with a log of what goes out. -/
def Caller.recording (caller : Caller σ) : Caller (σ × Log) where
  Handle := Webhook × caller.Handle
  connect hook world :=
    let (client, next) := caller.connect hook world.1
    (client.map (hook, ·), next, world.2)
  post client review timeout world :=
    let (exchanged, next) := caller.post client.2 review timeout world.1
    (exchanged, next, world.2 ++ [(client.1, review)])
  defaultTimeout := caller.defaultTimeout

section Recording

variable {caller : Caller σ} {hook : Webhook} {world next : σ} {handle : caller.Handle}

theorem Caller.connect_recording (h : caller.connect hook world = (.ok handle, next)) (log : Log) :
    caller.recording.connect hook (world, log) = (.ok (hook, handle), next, log) := by
  simp [recording, h, Except.map]

theorem Caller.post_recording {review : Review} {timeout : Time.Span} {exchanged : Exchanged}
    (h : caller.post handle review timeout world = (exchanged, next)) (hook : Webhook) (log : Log) :
    caller.recording.post (hook, handle) review timeout (world, log) =
      (exchanged, next, log ++ [(hook, review)]) := by
  simp [recording, h]

end Recording

/-- **A call that is watched comes to the same**, and what it sends is in the log. -/
theorem Caller.call_recording (caller : Caller σ) (request : Request) (invocation : Invocation)
    (objects : Versioned) (world : σ) (log : Log) :
    ∃ sent : Log, sent.Permitted request ∧
      caller.recording.call request invocation objects (world, log) =
        ((caller.call request invocation objects world).1,
          (caller.call request invocation objects world).2, log ++ sent) := by
  have hcourse := caller.course_call request invocation objects world
  generalize caller.call request invocation objects world = result at hcourse
  have hentry : ∀ {review}, invocation.webhook.gate request = .ok () →
      Log.Permitted request [(invocation.webhook, review)] := by
    intro review hgate entry hm
    rw [List.mem_singleton.1 hm]
    exact hgate
  cases hcourse with
  | closed gate =>
    refine ⟨[], Log.permitted_nil request, ?_⟩
    rw [List.append_nil]
    exact (Course.closed gate).call_eq
  | clientless gate connect =>
    refine ⟨[], Log.permitted_nil request, ?_⟩
    rw [List.append_nil]
    exact (Course.clientless gate (by simp [recording, connect, Except.map])).call_eq
  | unreached gate connect post reply =>
    exact ⟨_, hentry gate, (Course.unreached gate (connect_recording connect log)
      (post_recording post _ log) reply).call_eq⟩
  | unverified gate connect post reply verify =>
    exact ⟨_, hentry gate, (Course.unverified gate (connect_recording connect log)
      (post_recording post _ log) reply verify).call_eq⟩
  | answered gate connect post reply verify =>
    exact ⟨_, hentry gate, (Course.answered gate (connect_recording connect log)
      (post_recording post _ log) reply verify).call_eq⟩

/-- What a dispatch comes to, with a log. -/
def Dispatched.watched (after : Dispatched σ) (log : Log) : Dispatched (σ × Log) :=
  ⟨after.verdict, after.request, after.tally, after.reports, after.world, log⟩

namespace MutatingDispatch

variable (caller : Caller σ) (scheme : Scheme) (request : Request)

/-- A run with a log. -/
def Run.watched (run : Run σ) (log : Log) : Run (σ × Log) :=
  ⟨run.objects, run.tally, run.reports, run.world, log⟩

theorem step_watched (index : Nat) (invocation : Invocation) (run : Run σ) (log : Log) :
    ∃ sent : Log, sent.Permitted request ∧
      step caller.recording scheme request index invocation (run.watched log) =
        ((step caller scheme request index invocation run).1,
          (step caller scheme request index invocation run).2.watched (log ++ sent)) := by
  unfold step
  rw [show (run.watched log).objects = run.objects from rfl]
  cases objectsFor scheme request invocation.kind run.objects with
  | error e => exact ⟨[], Log.permitted_nil request, by rw [List.append_nil]⟩
  | ok objects =>
    obtain ⟨sent, hsent, hcall⟩ := caller.call_recording request invocation objects run.world log
    refine ⟨sent, hsent, ?_⟩
    dsimp only
    rw [show (run.watched log).world = (run.world, log) from rfl, hcall]
    obtain ⟨report, world⟩ := caller.call request invocation objects run.world
    dsimp only
    cases report.outcome.bind fun response =>
        Mutation.afterResponse scheme invocation.webhook.name response objects with
    | ok result => rfl
    | error failure =>
      dsimp only
      obtain ⟨decision, effects⟩ := Policy.evaluate invocation.webhook index request.operation failure
      cases decision <;> rfl

theorem steps_watched (index : Nat) (invocations : List Invocation) (run : Run σ) (log : Log) :
    ∃ sent : Log, sent.Permitted request ∧
      steps caller.recording scheme request index invocations (run.watched log) =
        ((steps caller scheme request index invocations run).1,
          (steps caller scheme request index invocations run).2.watched (log ++ sent)) := by
  induction invocations generalizing index run log with
  | nil => exact ⟨[], Log.permitted_nil request, by rw [List.append_nil]; rfl⟩
  | cons invocation rest ih =>
    obtain ⟨sent, hsent, hstep⟩ := step_watched caller scheme request index invocation run log
    unfold steps
    rw [hstep]
    obtain ⟨stop, after⟩ := step caller scheme request index invocation run
    cases stop with
    | some e => exact ⟨sent, hsent, rfl⟩
    | none =>
      obtain ⟨more, hmore, hsteps⟩ := ih (index + 1) after (log ++ sent)
      refine ⟨sent ++ more, hsent.append hmore, ?_⟩
      dsimp only
      rw [hsteps, List.append_assoc]

/-- **A dispatch that is watched comes to the same**, and sends reviews through the gate alone. -/
theorem dispatch_watched (tally : Tally) (invocations : List Invocation) (world : σ) :
    ∃ log : Log, log.Permitted request ∧
      dispatch caller.recording scheme request tally invocations (world, []) =
        (dispatch caller scheme request tally invocations world).watched log := by
  obtain ⟨sent, hsent, hsteps⟩ :=
    steps_watched caller scheme request 0 invocations ⟨none, tally, [], world⟩ []
  refine ⟨sent, hsent, ?_⟩
  unfold dispatch
  rw [show (⟨none, tally, [], world, []⟩ : Run (σ × Log)) =
    (⟨none, tally, [], world⟩ : Run σ).watched [] from rfl, hsteps, List.nil_append]
  obtain ⟨stop, run⟩ := steps caller scheme request 0 invocations ⟨none, tally, [], world⟩
  cases stop with
  | some e => rfl
  | none =>
    dsimp only
    rw [show (run.watched sent).objects = run.objects from rfl]
    cases admitted scheme request run.objects <;> rfl

end MutatingDispatch

namespace ValidatingDispatch

variable (caller : Caller σ) (request : Request)

theorem callAll_watched (prepared : List (Invocation × Versioned)) (world : σ) (log : Log) :
    ∃ sent : Log, sent.Permitted request ∧
      callAll caller.recording request prepared (world, log) =
        ((callAll caller request prepared world).1, (callAll caller request prepared world).2,
          log ++ sent) := by
  induction prepared generalizing world log with
  | nil => exact ⟨[], Log.permitted_nil request, by rw [List.append_nil]; rfl⟩
  | cons p rest ih =>
    obtain ⟨sent, hsent, hcall⟩ := caller.call_recording request p.1 p.2 world log
    obtain ⟨more, hmore, hrest⟩ := ih (caller.call request p.1 p.2 world).2 (log ++ sent)
    refine ⟨sent ++ more, hsent.append hmore, ?_⟩
    unfold callAll
    rw [hcall]
    dsimp only
    rw [hrest, List.append_assoc]

/-- **A dispatch to tasks that is watched comes to the same**; if the objects do not convert, nothing goes
out at all. -/
theorem dispatch_watched (scheme : Scheme) (scheduler : Scheduler) (tally : Tally)
    (invocations : List Invocation) (world : σ) :
    ∃ log : Log, log.Permitted request ∧
      dispatch caller.recording scheme scheduler request tally invocations (world, []) =
        (dispatch caller scheme scheduler request tally invocations world).watched log := by
  unfold dispatch
  rw [mapM_eq_prepare]
  cases prepare scheme request invocations with
  | error e => exact ⟨[], Log.permitted_nil request, rfl⟩
  | ok prepared =>
    obtain ⟨sent, hsent, hcalls⟩ := callAll_watched caller request prepared world []
    refine ⟨sent, hsent, ?_⟩
    dsimp only
    rw [hcalls]
    rfl

namespace Crew

/-- Tasks with a log. -/
def watched (crew : Crew σ) (log : Log) : Crew (σ × Log) :=
  ⟨crew.tasks, crew.calls, crew.writes, crew.world, log⟩

variable {caller request}

theorem step_watched {crew after : Crew σ} {task : Nat}
    (h : crew.step caller request task = some after) (log : Log) :
    ∃ sent : Log, sent.Permitted request ∧
      (crew.watched log).step caller.recording request task = some (after.watched (log ++ sent)) := by
  obtain ⟨invocation, objects, ht, rfl⟩ | ⟨report, effect, left, ht, hroom, rfl⟩ := step_cases h
  · obtain ⟨sent, hsent, hcall⟩ := caller.call_recording request invocation objects crew.world log
    refine ⟨sent, hsent, ?_⟩
    have ht' : (crew.watched log).tasks[task]? = some (.waiting invocation objects) := ht
    unfold step ask
    rw [ht']
    dsimp only
    rw [show (crew.watched log).world = (crew.world, log) from rfl, hcall]
    rfl
  · refine ⟨[], Log.permitted_nil request, ?_⟩
    have ht' : (crew.watched log).tasks[task]? = some (.writing report (effect :: left)) := ht
    have hroom' : (crew.watched log).hasRoom effect = true := hroom
    unfold step
    rw [ht', List.append_nil]
    dsimp only
    rw [hroom']
    rfl

/-- **An interleaving that is watched is the same**, as far as it goes. -/
theorem run_watched {turns : List Nat} {crew after : Crew σ}
    (h : run caller request turns crew = some after) (log : Log) :
    ∃ sent : Log, sent.Permitted request ∧
      run caller.recording request turns (crew.watched log) = some (after.watched (log ++ sent)) := by
  induction turns generalizing crew log with
  | nil =>
    cases h
    exact ⟨[], Log.permitted_nil request, by rw [List.append_nil]; rfl⟩
  | cons task turns ih =>
    obtain ⟨next, hstep, hrest⟩ := Option.bind_eq_some_iff.1 h
    obtain ⟨sent, hsent, hstep⟩ := step_watched hstep log
    obtain ⟨more, hmore, hrest⟩ := ih hrest (log ++ sent)
    refine ⟨sent ++ more, hsent.append hmore, ?_⟩
    rw [run, hstep, Option.bind_some, hrest, List.append_assoc]

end Crew

end ValidatingDispatch

/-! ## 3. The end of a dry run -/

/-- Whether nothing has gone out but to webhooks that have declared that a dry run has no side effects, and
that understand what they are sent. -/
def Log.Harmless (log : Log) : Prop :=
  ∀ entry ∈ log, entry.1.DeclaresNone ∧ entry.1.acceptsReview = true

section Dry

variable {request : Request} (hdry : request.dryRun = true)
include hdry

theorem Log.Permitted.harmless {log : Log} (h : log.Permitted request) : log.Harmless := by
  intro entry hm
  obtain ⟨hnone, haccepts⟩ := Webhook.gate_eq_ok_iff.1 (h entry hm)
  exact ⟨hnone hdry, haccepts⟩

/-- **A dry run with mutating webhooks** goes on only past harmless ones, and ends at one that has
declared side effects. -/
theorem MutatingDispatch.dry_verdict (caller : Caller σ) (scheme : Scheme) (tally : Tally)
    (invocations : List Invocation) (world : σ) :
    let after := dispatch caller scheme request tally invocations world
    (after.verdict = .ok () → ∀ i ∈ invocations, i.webhook.IsHarmless) ∧
    ∀ i invocation, invocations[i]? = some invocation → i < after.reports.length →
      invocation.webhook.DeclaresSome →
        after.verdict = .error (.dryRunUnsupported invocation.webhook.name) := by
  intro after
  obtain ⟨stop, run, hrun, hhalt⟩ := exists_halt caller scheme request tally invocations world
  have hend : Ending scheme request invocations after := hhalt.ending hrun
  have hcalled : ∀ i invocation, invocations[i]? = some invocation → i < after.reports.length →
      ∃ objects before, (invocation, (caller.call request invocation objects before).1) ∈
        invocations.zip after.reports := by
    intro i invocation hi hlt
    have hr : after.reports[i]? = some after.reports[i] := List.getElem?_eq_getElem hlt
    obtain ⟨called, objects, before, hcalled, -, hreport⟩ :=
      exists_call caller scheme request tally invocations world hr
    obtain rfl : called = invocation := Option.some.inj (hcalled.symm.trans hi)
    refine ⟨objects, before, ?_⟩
    rw [← hreport]
    exact List.mem_of_getElem? (List.getElem?_zip_eq_some.2 ⟨hi, hr⟩)
  refine ⟨fun hok invocation hm => ?_, fun i invocation hi hlt hsome => ?_⟩
  · obtain ⟨hall, hpasses⟩ := hend.of_ok hok
    obtain ⟨i, hi, rfl⟩ := List.mem_iff_getElem.1 hm
    obtain ⟨objects, before, hcall⟩ :=
      hcalled i _ (List.getElem?_eq_getElem hi) (hall.symm ▸ hi)
    exact caller.isHarmless_of_passes _ objects before hdry (hpasses _ hcall)
  · obtain ⟨objects, before, hcall⟩ := hcalled i invocation hi hlt
    exact hend.of_abort? hcall (caller.abort?_of_declaresSome _ objects before hdry hsome)

namespace ValidatingDispatch

variable {caller : Caller σ} {scheme : Scheme} {invocations : List Invocation} {world : σ}

/-- **A dry run with validating webhooks** in which all tasks have ended: one whose webhook has declared
side effects has said so, and the request ends with that or with what another task said before. -/
theorem Crew.Finished.dry_rejected {crew : Crew σ}
    (h : crew.Finished caller scheme request invocations world) {i : Nat} {invocation : Invocation}
    (hi : invocations[i]? = some invocation) (hsome : invocation.webhook.DeclaresSome) :
    (i, .dryRunUnsupported invocation.webhook.name) ∈ crew.channel ∧
    ∃ task e, crew.channel.head? = some (task, e) ∧ crew.verdict = .error e ∧
      (task = i → e = .dryRunUnsupported invocation.webhook.name) := by
  have hdecided := h.decided
  have hends : ∀ report, (i, report) ∈ crew.calls →
      report.abort? invocation.webhook = some (.dryRunUnsupported invocation.webhook.name) := by
    intro report hcall
    obtain ⟨called, objects, before, hcalled, rfl⟩ := h.exists_call hcall
    obtain rfl : called = invocation := Option.some.inj (hcalled.symm.trans hi)
    exact caller.abort?_of_declaresSome _ objects before hdry hsome
  obtain ⟨report, hcall⟩ := h.called hi
  have hmessage := (hdecided.messages _ _).2 ⟨report, invocation, hcall, hi, hends report hcall⟩
  refine ⟨hmessage, ?_⟩
  obtain ⟨⟨task, e⟩, hfirst⟩ : ∃ first, crew.channel.head? = some first := by
    cases hchannel : crew.channel with
    | nil => rw [hchannel] at hmessage; cases hmessage
    | cons first rest => exact ⟨first, rfl⟩
  refine ⟨task, e, hfirst, (hdecided.first e).2 ⟨task, hfirst⟩, ?_⟩
  rintro rfl
  obtain ⟨other, called, hother, hcalled, hend⟩ :=
    (hdecided.messages _ e).1 (List.mem_of_mem_head? hfirst)
  obtain rfl : called = invocation := Option.some.inj (hcalled.symm.trans hi)
  rw [hends other hother] at hend
  exact (Option.some.inj hend).symm

theorem ComesTo.isHarmless {tally : Tally} {after : Dispatched σ}
    (h : ComesTo caller scheme request tally invocations world after)
    (hok : after.verdict = .ok ()) : ∀ i ∈ invocations, i.webhook.IsHarmless := by
  intro invocation hm
  cases h with
  | unprepared failed => cases hok
  | joined finished =>
    obtain ⟨i, hi⟩ := List.mem_iff_getElem?.1 hm
    obtain ⟨report, hcall⟩ := finished.called hi
    have hpasses := CallReport.abort?_eq_none_iff.1
      (finished.decided.ok_iff.1 hok i report invocation hcall hi)
    obtain ⟨called, objects, before, hcalled, rfl⟩ := finished.exists_call hcall
    obtain rfl : called = invocation := Option.some.inj (hcalled.symm.trans hi)
    exact caller.isHarmless_of_passes _ objects before hdry hpasses

end ValidatingDispatch

end Dry

/-- **Dry runs harm nobody.**  Watched or not, a dry run comes to the same, and whatever the clients, the
answers and the order of the tasks, no review goes out but to webhooks that have declared that a dry run has
no side effects and that understand it.  The request goes on only if every webhook has declared so, or has
declared nothing and may be passed over.  A webhook that has declared side effects refuses the request
whatever its failure policy, with an error of its own: it is the end of the mutating webhooks if their turn
comes to it, and the end of the validating ones unless another refusal comes first. -/
theorem dry_run_harms_nobody (caller : Caller σ) (scheme : Scheme) {request : Request}
    (hdry : request.dryRun = true) (tally : Tally) (invocations : List Invocation) (world : σ) :
    (let after := MutatingDispatch.dispatch caller scheme request tally invocations world
      ∃ log : Log, log.Harmless ∧
        MutatingDispatch.dispatch caller.recording scheme request tally invocations (world, []) =
          after.watched log ∧
        (after.verdict = .ok () → ∀ i ∈ invocations, i.webhook.IsHarmless) ∧
        ∀ i invocation, invocations[i]? = some invocation → i < after.reports.length →
          invocation.webhook.DeclaresSome →
            after.verdict = .error (.dryRunUnsupported invocation.webhook.name)) ∧
    (∀ scheduler, ∃ log : Log, log.Harmless ∧
      ValidatingDispatch.dispatch caller.recording scheme scheduler request tally invocations
        (world, []) = (ValidatingDispatch.dispatch caller scheme scheduler request tally invocations
          world).watched log) ∧
    (∀ prepared, ValidatingDispatch.prepare scheme request invocations = .ok prepared →
      ∀ turns crew, ValidatingDispatch.Crew.run caller request turns
          (ValidatingDispatch.Crew.spawn prepared world) = some crew →
        ∃ log : Log, log.Harmless ∧ ValidatingDispatch.Crew.run caller.recording request turns
          (ValidatingDispatch.Crew.spawn prepared (world, [])) = some (crew.watched log)) ∧
    (∀ after, ValidatingDispatch.ComesTo caller scheme request tally invocations world after →
      after.verdict = .ok () → ∀ i ∈ invocations, i.webhook.IsHarmless) ∧
    (∀ crew, ValidatingDispatch.Crew.Finished caller scheme request invocations world crew →
      ∀ i invocation, invocations[i]? = some invocation → invocation.webhook.DeclaresSome →
        (i, .dryRunUnsupported invocation.webhook.name) ∈ crew.channel ∧
        ∃ task e, crew.channel.head? = some (task, e) ∧ crew.verdict = .error e ∧
          (task = i → e = .dryRunUnsupported invocation.webhook.name)) ∧
    ∀ name, (StatusError.dryRunUnsupported name).code = 400 := by
  refine ⟨?_, ?_, ?_, ?_, ?_, fun _ => rfl⟩
  · obtain ⟨log, hlog, hsame⟩ :=
      MutatingDispatch.dispatch_watched caller scheme request tally invocations world
    exact ⟨log, hlog.harmless hdry, hsame,
      MutatingDispatch.dry_verdict hdry caller scheme tally invocations world⟩
  · intro scheduler
    obtain ⟨log, hlog, hsame⟩ := ValidatingDispatch.dispatch_watched caller request scheme scheduler
      tally invocations world
    exact ⟨log, hlog.harmless hdry, hsame⟩
  · intro prepared _ turns crew hrun
    obtain ⟨log, hlog, hsame⟩ := ValidatingDispatch.Crew.run_watched hrun []
    exact ⟨log, hlog.harmless hdry, hsame⟩
  · exact fun after h => h.isHarmless hdry
  · exact fun crew h i invocation => h.dry_rejected hdry

/-! ### a pod and a webhook that acts -/

/-- The creation of a pod that is only tried out. -/
def triedPodCreation : Request := { MutatingDispatch.podCreation with dryRun := true }

/-- A webhook that has declared side effects, and may be passed over when it cannot be asked. -/
def actingInvocation : Invocation :=
  { MutatingDispatch.podInvocation with
    webhook := { Webhook.bare "acting" .mutating with
      sideEffects := some .some, failurePolicy := .ignore } }

/-- The first webhook is asked for its patch; the second is not asked, and is not passed over. -/
theorem dry_run_harms_nobody_tried_pod :
    let caller := MutatingDispatch.patching MutatingDispatch.emptyLabels
    let invocations := [MutatingDispatch.podInvocation, actingInvocation]
    let after := MutatingDispatch.dispatch caller MutatingDispatch.plainScheme triedPodCreation
      ⟨.empty, {}, []⟩ invocations ()
    triedPodCreation.dryRun = true ∧ after.verdict = .error (.dryRunUnsupported "acting") ∧
    ∃ log : Log, log.Harmless ∧ log.map (·.1.name) = ["patcher"] ∧
      MutatingDispatch.dispatch caller.recording MutatingDispatch.plainScheme triedPodCreation
        ⟨.empty, {}, []⟩ invocations ((), []) = after.watched log := by
  intro caller invocations after
  have hdry : triedPodCreation.dryRun = true := rfl
  obtain ⟨⟨log, hlog, hsame, -, hrefused⟩, -⟩ := dry_run_harms_nobody caller
    MutatingDispatch.plainScheme hdry ⟨.empty, {}, []⟩ invocations ()
  have hcalled : after.reports.length = 2 := by decide +kernel
  have hlogged : (MutatingDispatch.dispatch caller.recording MutatingDispatch.plainScheme
      triedPodCreation ⟨.empty, {}, []⟩ invocations ((), [])).world.2.map (·.1.name) =
        ["patcher"] := by decide +kernel
  rw [hsame] at hlogged
  exact ⟨hdry, hrefused 1 actingInvocation rfl (by rw [hcalled]; decide) (.inl rfl), log, hlog,
    hlogged, hsame⟩

/-- A webhook that has declared nothing, and may not be passed over. -/
def silentInvocation : Invocation :=
  { MutatingDispatch.podInvocation with
    webhook := { Webhook.bare "silent" .validating with sideEffects := none } }

/-- **Another refusal may come first**: the request is rejected with 500 for a validating webhook that cannot be asked,
though the one behind it has declared side effects. -/
theorem earlier_refusal_decides :
    let caller := MutatingDispatch.patching MutatingDispatch.emptyLabels
    let acting := { actingInvocation with webhook.kind := .validating }
    ∃ after, ValidatingDispatch.ComesTo caller MutatingDispatch.plainScheme triedPodCreation ⟨.empty, {}, []⟩
        [silentInvocation, acting] () after ∧
      triedPodCreation.dryRun = true ∧ acting.webhook.DeclaresSome ∧ after.reports.length = 2 ∧
      after.verdict = .error (.internal "failed calling webhook \"silent\"") ∧
      (StatusError.internal "failed calling webhook \"silent\"").code = 500 := by
  intro caller acting
  have hcomes := ValidatingDispatch.comesTo_dispatch caller MutatingDispatch.plainScheme
    ValidatingDispatch.promptFirst triedPodCreation ⟨.empty, {}, []⟩ [silentInvocation, acting] ()
  refine ⟨_, hcomes, rfl, .inl rfl, ?_, ?_, rfl⟩
  · decide +kernel
  · decide +kernel

end Admission
