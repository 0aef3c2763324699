import Admission.Proofs.Dispatch.Accounts
import Admission.Proofs.Dispatch.DryRun

/-!
# Which exchanges are measured

A webhook is asked by posting a review to it, and that can be seen from outside (`Caller.recording`).  What is
measured of it is seen in the metrics (`Metrics.observations`).  Both follow from the reports of the calls:
the log is what the reports say was sent (`ValidatingDispatch.callAll_recording`), and the metrics grow by what
they say was measured, in a mutating dispatch step by step and in a validating one because the writes of all
tasks are those of each.

So the two agree if they do for every call, and they do but for one course of it: where the answer does not
count, the call ends before it is measured (`CallReport.unverified?`).
-/

namespace Admission

/-! ## 1. What can be seen -/

namespace Metrics

/-- **How many calls of a name were measured**: the sum of the counts under all labels with that name. -/
def observations (m : Metrics) (name : String) : Nat :=
  (((distinct (m.calls.map (·.1))).filter (·.name = name)).map fun labels =>
    (m.calls.filter (·.1 = labels)).length).sum

theorem observations_eq (m : Metrics) (name : String) :
    m.observations name = (m.calls.map (·.1)).countP (·.name = name) := by
  obtain ⟨hnodup, hmem⟩ := distinct_spec (m.calls.map (·.1))
  have hperm : (distinct (m.calls.map (·.1))).Perm (m.calls.map (·.1)).dedup :=
    (List.perm_ext_iff_of_nodup hnodup (List.nodup_dedup _)).2 fun a => by
      rw [hmem, List.mem_dedup]
  have hcount : ∀ labels, (m.calls.filter (·.1 = labels)).length = (m.calls.map (·.1)).count labels := by
    intro labels
    rw [List.count, List.countP_map, List.countP_eq_length_filter]
    congr 1
  unfold observations
  simp only [hcount]
  rw [((hperm.filter _).map _).sum_eq]
  exact List.sum_map_count_dedup_filter_eq_countP _ _

end Metrics

namespace CallReport

/-- What is counted of a call, if it is measured. -/
def observed? (report : CallReport) (hook : Webhook) (operation : Operation) : Option CallLabels :=
  report.measured.map fun (rejected, _) => ⟨hook.name, hook.kind, operation, rejected⟩

/-- What is seen of it from outside. -/
def logged (report : CallReport) (hook : Webhook) : Log := (report.sent.map (hook, ·)).toList

/-- The webhook whose answer did not count, if that is how the call ended. -/
def unverified? (report : CallReport) : Option String :=
  match report.outcome with
  | .error (.calling webhook (.response _)) => some webhook
  | _ => none

/-- **A call is measured once if something was sent, unless the answer does not count.** -/
structure Balanced (report : CallReport) (hook : Webhook) : Prop where
  total : report.measured.isSome.toNat + report.unverified?.isSome.toNat = report.sent.isSome.toNat
  name : ∀ webhook ∈ report.unverified?, webhook = hook.name

theorem Balanced.counts {report : CallReport} {hook : Webhook} (h : report.Balanced hook)
    (operation : Operation) (name : String) :
    ((report.observed? hook operation).toList).countP (·.name = name) +
        (if report.unverified? = some name then 1 else 0) =
      (report.logged hook).countP (·.1.name = name) := by
  obtain ⟨htotal, hname⟩ := h
  unfold observed? logged
  by_cases hown : hook.name = name
  · have hunverified : (if report.unverified? = some name then 1 else 0) =
        report.unverified?.isSome.toNat := by
      cases hu : report.unverified? with
      | none => rfl
      | some webhook =>
        rw [hname webhook hu, hown, if_pos rfl]
        rfl
    have hobserved : ((report.measured.map fun (rejected, _) =>
        (⟨hook.name, hook.kind, operation, rejected⟩ : CallLabels)).toList).countP (·.name = name) =
          report.measured.isSome.toNat := by
      cases report.measured <;> simp [hown]
    have hlogged : ((report.sent.map (hook, ·)).toList).countP (·.1.name = name) =
        report.sent.isSome.toNat := by
      cases report.sent <;> simp [hown]
    rw [hunverified, hobserved, hlogged, htotal]
  · have hunverified : report.unverified? ≠ some name := fun hu => hown (hname name hu).symm
    rw [if_neg hunverified]
    cases report.measured <;> cases report.sent <;> simp [hown]

theorem filterMap_called (report : CallReport) (hook : Webhook) (operation : Operation) :
    (report.effects hook operation).filterMap Effect.called? = (report.observed? hook operation).toList := by
  have hanswered : ∀ response : ReviewResponse,
      (((response.auditAnnotations.getD ∅).fields.map fun ((key, value) : String × String) =>
          Effect.annotate s!"{hook.name}/{key}" value) ++
        (response.warnings.getD []).map Effect.warn).filterMap Effect.called? = [] := by
    intro response
    rw [List.filterMap_eq_nil_iff]
    intro effect hm
    rcases List.mem_append.1 hm with hm | hm
    · obtain ⟨_, -, rfl⟩ := List.mem_map.1 hm
      rfl
    · obtain ⟨_, -, rfl⟩ := List.mem_map.1 hm
      rfl
  obtain ⟨sent, measured, outcome⟩ := report
  unfold effects observed?
  rw [List.filterMap_append]
  cases outcome with
  | error failure => cases measured <;> rfl
  | ok response =>
    dsimp only
    rw [hanswered, List.append_nil]
    cases measured <;> rfl

end CallReport

variable {σ : Type}

/-- **What is seen of one call** is what its report says. -/
theorem Caller.call_logged (caller : Caller σ) (request : Request) (invocation : Invocation)
    (objects : Versioned) (world : σ × Log) :
    let called := caller.recording.call request invocation objects world
    called.2.2 = world.2 ++ called.1.logged invocation.webhook ∧ called.1.Balanced invocation.webhook := by
  intro called
  have hcourse := caller.recording.course_call request invocation objects world
  change caller.recording.Course request invocation objects world called at hcourse
  generalize called = result at hcourse
  have hclient : ∀ {found next}, caller.recording.connect invocation.webhook world = (found, next) →
      next.2 = world.2 ∧ ∀ handle, found = .ok handle → handle.1 = invocation.webhook := by
    rintro _ _ ⟨⟩
    refine ⟨rfl, fun handle h => ?_⟩
    cases hconnect : (caller.connect invocation.webhook world.1).1 with
    | error e =>
      rw [hconnect] at h
      cases h
    | ok client =>
      rw [hconnect] at h
      cases h
      rfl
  have hposted : ∀ {handle : caller.recording.Handle} {review timeout next exchanged after},
      caller.recording.connect invocation.webhook world = (.ok handle, next) →
      caller.recording.post handle review timeout next = (exchanged, after) →
      after.2 = world.2 ++ [(invocation.webhook, review)] := by
    rintro handle review timeout next exchanged after hconnect ⟨⟩
    obtain ⟨hlog, hhandle⟩ := hclient hconnect
    show next.2 ++ [(handle.1, review)] = _
    rw [hlog, hhandle handle rfl]
  cases hcourse with
  | closed gate =>
    rcases Webhook.gate_cases gate with rfl | rfl | rfl <;>
      exact ⟨(List.append_nil _).symm, rfl, fun _ h => by cases h⟩
  | clientless gate connect =>
    exact ⟨(hclient connect).1.trans (List.append_nil _).symm, rfl, fun _ h => by cases h⟩
  | unreached gate connect post reply => exact ⟨hposted connect post, rfl, fun _ h => by cases h⟩
  | unverified gate connect post reply verify =>
    exact ⟨hposted connect post, rfl, fun _ h => (Option.some.inj h).symm⟩
  | answered gate connect post reply verify => exact ⟨hposted connect post, rfl, fun _ h => by cases h⟩

/-! ## 2. Calls one after another -/

namespace ValidatingDispatch

open MutatingDispatch (historyOf)

/-- What is seen of calls. -/
def logOf (history : History) : Log := history.flatMap fun call => call.2.logged call.1.webhook

/-- What is counted of them. -/
def observedOf (operation : Operation) (history : History) : List CallLabels :=
  history.filterMap fun call => call.2.observed? call.1.webhook operation

/-- **What is seen of calls one after another** is what their reports say. -/
theorem callAll_recording (caller : Caller σ) (request : Request) (past : List (Invocation × Versioned))
    (world : σ × Log) :
    let called := callAll caller.recording request past world
    called.2.2 = world.2 ++ logOf (historyOf past called.1) ∧
      ∀ call ∈ historyOf past called.1, call.2.Balanced call.1.webhook := by
  induction past generalizing world with
  | nil => exact ⟨(List.append_nil _).symm, fun _ h => by cases h⟩
  | cons p rest ih =>
    obtain ⟨hlog, hbalanced⟩ := caller.call_logged request p.1 p.2 world
    obtain ⟨hlogs, hall⟩ := ih (caller.recording.call request p.1 p.2 world).2
    refine ⟨?_, List.forall_mem_cons.2 ⟨hbalanced, hall⟩⟩
    rw [hlog, List.append_assoc] at hlogs
    exact hlogs

/-- **Calls that balance balance together**: what is counted of a name and the calls whose answers did not
count are what was sent. -/
theorem length_of_balanced (operation : Operation) {history : History}
    (h : ∀ call ∈ history, call.2.Balanced call.1.webhook) (name : String) :
    (observedOf operation history).countP (·.name = name) +
        (history.map (·.2)).countP (·.unverified? = some name) =
      (logOf history).countP (·.1.name = name) := by
  induction history with
  | nil => rfl
  | cons call rest ih =>
    obtain ⟨hcall, hrest⟩ := List.forall_mem_cons.1 h
    have hothers := ih hrest
    have hone := hcall.counts operation name
    have hobserved : observedOf operation (call :: rest) =
        (call.2.observed? call.1.webhook operation).toList ++ observedOf operation rest := by
      unfold observedOf
      rw [filterMap_cons_toList]
    have hlogged : logOf (call :: rest) = call.2.logged call.1.webhook ++ logOf rest := rfl
    rw [hobserved, hlogged, List.countP_append, List.countP_append, List.map_cons, List.countP_cons]
    simp only [decide_eq_true_eq]
    omega

end ValidatingDispatch

/-! ## 3. A mutating dispatch -/

theorem Fate.called_counted (fate : Fate) (hook : Webhook) (operation : Operation) :
    (fate.counted hook operation).filterMap Effect.called? = [] := by
  cases fate <;> rfl

namespace MutatingDispatch

open Mutation
open ValidatingDispatch (logOf observedOf)

variable {caller : Caller σ} {scheme : Scheme} {request : Request} {run after : Run σ}
  {stop : Option StatusError}

/-- **One step measures what its call says**, if it gets as far as calling. -/
theorem step_measured {index : Nat} {invocation : Invocation}
    (hs : step caller scheme request index invocation run = (stop, after)) :
    (after = run ∧ stop ≠ none) ∨
    ∃ report, after.reports = run.reports ++ [report] ∧
      after.tally.metrics.calls.map (·.1) = run.tally.metrics.calls.map (·.1) ++
        (report.observed? invocation.webhook request.operation).toList := by
  cases hc : (run.held request).convertTo scheme.convert invocation.kind with
  | error e =>
    rw [step_unconvertible caller scheme request index invocation run hc] at hs
    cases hs
    exact .inl ⟨rfl, by simp⟩
  | ok objects =>
    right
    generalize hcall : caller.call request invocation objects run.world = called
    obtain ⟨report, next⟩ := called
    obtain ⟨after', notes, hs', hreports, hnotes, htally⟩ :=
      step_tallies caller scheme request index invocation run hc hcall
    obtain ⟨-, rfl⟩ := Prod.mk.inj (hs.symm.trans hs')
    refine ⟨report, hreports, ?_⟩
    have hunmeasured : notes.filterMap Effect.called? = [] := List.filterMap_eq_nil_iff.2 fun note hnote => by
      obtain ⟨key, value, rfl⟩ := hnotes note hnote
      rfl
    rw [htally, (Effect.metrics_applyAll _ _).1, List.filterMap_append, List.filterMap_append,
      report.filterMap_called, Fate.called_counted, hunmeasured, List.append_nil, List.append_nil]

theorem steps_measured {index : Nat} {rest : List Invocation}
    (hs : steps caller scheme request index rest run = (stop, after)) :
    ∃ reports, after.reports = run.reports ++ reports ∧
      after.tally.metrics.calls.map (·.1) =
        run.tally.metrics.calls.map (·.1) ++ observedOf request.operation (rest.zip reports) := by
  induction rest generalizing index run with
  | nil =>
    cases hs
    exact ⟨[], (List.append_nil _).symm, (List.append_nil _).symm⟩
  | cons invocation rest ih =>
    unfold steps at hs
    generalize hstep : step caller scheme request index invocation run = stepped at hs
    obtain ⟨first, next⟩ := stepped
    obtain ⟨rfl, hfirst⟩ | ⟨report, hreports, hmeasured⟩ := step_measured hstep
    · cases first with
      | none => exact absurd rfl hfirst
      | some e =>
        cases hs
        exact ⟨[], (List.append_nil _).symm, (List.append_nil _).symm⟩
    · cases first with
      | some e =>
        cases hs
        refine ⟨[report], hreports, ?_⟩
        rw [hmeasured, List.zip_cons_cons, List.zip_nil_right, observedOf, filterMap_cons_toList]
        simp
      | none =>
        obtain ⟨reports, hafter, hothers⟩ := ih hs
        refine ⟨report :: reports, ?_, ?_⟩
        · rw [hafter, hreports, List.append_assoc]
          rfl
        · rw [hothers, hmeasured, List.append_assoc, List.zip_cons_cons, observedOf, observedOf,
            filterMap_cons_toList]

end MutatingDispatch

/-- **The measurements of a name are what went out under it**, less the answers that did not count. -/
def Dispatched.Balances {τ : Type} (after : Dispatched τ) (before : Tally) (log : Log) (name : String) :
    Prop :=
  after.tally.metrics.observations name + after.reports.countP (·.unverified? = some name) =
    before.metrics.observations name + log.countP (·.1.name = name)

namespace MutatingDispatch

theorem dispatch_balances (caller : Caller σ) (scheme : Scheme) (request : Request) (tally : Tally)
    (invocations : List Invocation) (world : σ) (name : String) :
    let after := dispatch caller.recording scheme request tally invocations (world, [])
    after.Balances tally after.world.2 name := by
  intro after
  obtain ⟨stop, run, hrun, hhalt⟩ :=
    exists_halt caller.recording scheme request tally invocations (world, [])
  obtain ⟨past, -, hhistory, hcalls⟩ := hhalt.calls
  obtain ⟨reports, hreports, hmeasured⟩ := steps_measured hrun
  obtain ⟨hafter, hworld⟩ := dispatch_reports hrun
  obtain ⟨hlog, hbalanced⟩ := ValidatingDispatch.callAll_recording caller request past (world, [])
  rw [hcalls.sequence] at hlog hbalanced
  have hlength := hcalls.length
  have hlast : (historyOf past run.reports).map (·.2) = run.reports := by
    unfold historyOf
    rw [List.map_snd_zip (by rw [List.length_map, hlength])]
  have htotal := ValidatingDispatch.length_of_balanced request.operation hbalanced name
  rw [List.nil_append] at hreports
  rw [hlast, hhistory] at htotal
  rw [hhistory] at hlog
  rw [← hreports] at hmeasured
  dsimp only at hmeasured
  show _ + _ = _ + _
  rw [show after.tally = run.tally from dispatch_tally hrun, show after.reports = run.reports from hafter,
    show after.world = run.world from hworld, Metrics.observations_eq, Metrics.observations_eq, hmeasured,
    List.countP_append, hlog, List.nil_append]
  omega

end MutatingDispatch

/-! ## 4. A validating dispatch -/

namespace ValidatingDispatch

open MutatingDispatch (historyOf)

theorem filterMap_called_taskEffects (operation : Operation) (index : Nat) (invocation : Invocation)
    (report : CallReport) : (taskEffects operation index invocation report).filterMap Effect.called? =
      (report.observed? invocation.webhook operation).toList := by
  have hpolicy : ∀ failure, (Policy.evaluate invocation.webhook index operation failure).2.filterMap
      Effect.called? = [] := by
    intro failure
    rw [Policy.evaluate_eq]
    cases (failure.fate invocation.webhook).error? with
    | some e => exact Fate.called_counted _ _ _
    | none =>
      rw [List.filterMap_append, Fate.called_counted]
      rfl
  unfold taskEffects
  rw [List.filterMap_append, report.filterMap_called]
  refine (congrArg _ ?_).trans (List.append_nil _)
  split
  · rfl
  · rename_i failure _
    have hnone := hpolicy failure
    split
    · rename_i effects heval
      rwa [heval] at hnone
    · rename_i e effects heval
      rw [heval] at hnone
      rw [List.filterMap_append, hnone]
      rfl

namespace Crew

/-- The calls of the tasks, with their webhooks. -/
def history (crew : Crew σ) (invocations : List Invocation) : History :=
  crew.calls.filterMap fun call => invocations[call.1]?.map (·, call.2)

variable {caller : Caller σ} {scheme : Scheme} {request : Request} {invocations : List Invocation}
  {world : σ} {crew : Crew σ}

theorem Valid.history_eq {prepared : List (Invocation × Versioned)}
    (hv : crew.Valid caller request prepared world) :
    historyOf (crew.calls.filterMap fun c => prepared[c.1]?) (crew.calls.map (·.2)) =
        crew.history (prepared.map (·.1)) ∧
      (crew.history (prepared.map (·.1))).map (·.2) = crew.calls.map (·.2) := by
  have hprepared : ∀ call ∈ crew.calls, ∃ p, prepared[call.1]? = some p := by
    intro call hm
    obtain ⟨p, hp, -⟩ := hv.exists_call hm
    exact ⟨p, hp⟩
  unfold history historyOf
  generalize crew.calls = calls at hprepared
  induction calls with
  | nil => exact ⟨rfl, rfl⟩
  | cons call rest ih =>
    obtain ⟨⟨p, hp⟩, hrest⟩ := List.forall_mem_cons.1 hprepared
    obtain ⟨hsame, hreports⟩ := ih hrest
    have hp' : (prepared.map (·.1))[call.1]? = some p.1 := by
      rw [List.getElem?_map, hp]
      rfl
    constructor
    · rw [filterMap_cons_toList, filterMap_cons_toList, hp, hp', ← hsame]
      rfl
    · rw [filterMap_cons_toList, hp', List.map_append, hreports]
      rfl

/-- **All tasks together measure what their calls say**, in some order. -/
theorem Finished.observed_perm (h : crew.Finished caller scheme request invocations world)
    (tally : Tally) :
    ((crew.outcome request tally).tally.metrics.calls.map (·.1)).Perm
      (tally.metrics.calls.map (·.1) ++ observedOf request.operation (crew.history invocations)) := by
  have hwrites : ((crew.writes.map (·.2)).filterMap Effect.called?).Perm
      (observedOf request.operation (crew.history invocations)) := by
    refine (h.writes_perm_calls.filterMap Effect.called?).trans (.of_eq ?_)
    rw [observedOf, history, List.filterMap_filterMap, List.filterMap_flatMap,
      List.filterMap_eq_flatMap_toList]
    refine List.flatMap_congr fun call hm => ?_
    obtain ⟨invocation, -, -, hinvocation, -⟩ := h.exists_call hm
    rw [hinvocation]
    exact filterMap_called_taskEffects request.operation call.1 invocation call.2
  show ((Effect.applyAll { tally with errors := [] } (crew.writes.map (·.2))).metrics.calls.map (·.1)).Perm _
  rw [(Effect.metrics_applyAll _ _).1]
  exact hwrites.append_left _

/-- **Every interleaving balances.** -/
theorem Finished.balances {crew : Crew (σ × Log)}
    (h : crew.Finished caller.recording scheme request invocations (world, [])) (tally : Tally)
    (name : String) : (crew.outcome request tally).Balances tally crew.world.2 name := by
  obtain ⟨prepared, hprepare, hv, -⟩ := h.exists_valid
  obtain ⟨hhistory, hreports⟩ := hv.history_eq
  obtain ⟨hlog, hbalanced⟩ := callAll_recording caller request
    (crew.calls.filterMap fun c => prepared[c.1]?) (world, [])
  rw [hv.sequence] at hlog hbalanced
  dsimp only at hlog hbalanced
  rw [hhistory, (prepare_ok hprepare).1] at hlog hbalanced
  rw [(prepare_ok hprepare).1] at hreports
  have htotal := length_of_balanced request.operation hbalanced name
  have hmeasured := (h.observed_perm tally).countP_eq (·.name = name)
  rw [List.countP_append] at hmeasured
  rw [hreports] at htotal
  show _ + _ = _ + _
  rw [Metrics.observations_eq, Metrics.observations_eq, hmeasured, hlog, List.nil_append]
  show _ + List.countP _ (crew.calls.map (·.2)) = _
  omega

end Crew

/-- Whatever a dispatch comes to balances; if the objects do not convert, nothing is sent or measured. -/
theorem ComesTo.balances {caller : Caller σ} {scheme : Scheme} {request : Request} {tally : Tally}
    {invocations : List Invocation} {world : σ} {after : Dispatched (σ × Log)}
    (h : ComesTo caller.recording scheme request tally invocations (world, []) after) (name : String) :
    after.Balances tally after.world.2 name := by
  cases h with
  | unprepared failed => rfl
  | joined finished => exact finished.balances tally name

end ValidatingDispatch

/-! ## 5. Both dispatchers -/

/-- **Every exchange is measured once, but for one sort of answer.**  Watched or not, a dispatch comes to the
same, and for every name the measurements it adds are the reviews that have gone out under that name, less the
calls whose answers did not count.  So it is in a mutating dispatch, in a validating one however its tasks are
scheduled, and in every interleaving of its tasks that comes to its end; and calls that end before anything is
sent are not measured, since they do not show in the log. -/
theorem exchanges_are_measured_unless_unverified (caller : Caller σ) (scheme : Scheme) (request : Request)
    (tally : Tally) (invocations : List Invocation) (world : σ) (name : String) :
    (let after := MutatingDispatch.dispatch caller scheme request tally invocations world
      ∃ log, MutatingDispatch.dispatch caller.recording scheme request tally invocations (world, []) =
          after.watched log ∧ after.Balances tally log name) ∧
    (∀ scheduler,
      let after := ValidatingDispatch.dispatch caller scheme scheduler request tally invocations world
      ∃ log, ValidatingDispatch.dispatch caller.recording scheme scheduler request tally invocations
          (world, []) = after.watched log ∧ after.Balances tally log name) ∧
    ∀ prepared, ValidatingDispatch.prepare scheme request invocations = .ok prepared →
      ∀ turns crew, ValidatingDispatch.Crew.run caller request turns
          (ValidatingDispatch.Crew.spawn prepared world) = some crew → crew.Joined →
        ∃ log, ValidatingDispatch.Crew.run caller.recording request turns
            (ValidatingDispatch.Crew.spawn prepared (world, [])) = some (crew.watched log) ∧
          (crew.outcome request tally).Balances tally log name := by
  refine ⟨?_, ?_, ?_⟩
  · obtain ⟨log, -, hsame⟩ :=
      MutatingDispatch.dispatch_watched caller scheme request tally invocations world
    have hbalances :=
      MutatingDispatch.dispatch_balances caller scheme request tally invocations world name
    rw [hsame] at hbalances
    exact ⟨log, hsame, hbalances⟩
  · intro scheduler
    obtain ⟨log, -, hsame⟩ := ValidatingDispatch.dispatch_watched caller request scheme scheduler
      tally invocations world
    have hcomes := ValidatingDispatch.comesTo_dispatch caller.recording scheme scheduler request tally
      invocations (world, [])
    rw [hsame] at hcomes
    exact ⟨log, hsame, hcomes.balances name⟩
  · intro prepared hprepare turns crew hrun hjoined
    obtain ⟨log, -, hwatched⟩ := ValidatingDispatch.Crew.run_watched hrun []
    rw [List.nil_append] at hwatched
    have hfinished : (crew.watched log).Finished caller.recording scheme request invocations (world, []) :=
      ⟨prepared, turns, hprepare, hwatched, hjoined⟩
    exact ⟨log, hwatched, hfinished.balances tally name⟩

/-- A webhook server that answers somebody else. -/
def Caller.confused : Caller Unit where
  Handle := Unit
  connect _ world := (.ok (), world)
  post _ _ _ world :=
    (⟨.ok {
      apiVersion := Review.version
      kind := Review.kindName
      response := some { uid := "other", allowed := true } }, ⟨0⟩⟩, world)
  defaultTimeout := ⟨0⟩

/-- **An answer that does not count is not measured**: a review has gone out to the webhook, the answer is for
another request, and the metrics are as they were. -/
theorem unverified_answers_are_not_measured :
    let after := MutatingDispatch.dispatch Caller.confused.recording MutatingDispatch.plainScheme
      MutatingDispatch.podCreation ⟨.empty, {}, []⟩ [MutatingDispatch.podInvocation] ((), [])
    after.world.2.map (·.1.name) = ["patcher"] ∧ after.tally.metrics.observations "patcher" = 0 ∧
      after.reports.map (·.unverified?) = [some "patcher"] := by
  decide +kernel

end Admission
