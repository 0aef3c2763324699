import Admission.Proofs.Dispatch.Fate

/-!
# Mutating dispatch does what the reference says

Between two webhooks a run holds the objects in the kind of the last webhook and whether any webhook
has patched them.  What it holds is what the reference computes from the history (`Run.Follows`), a
property that every step keeps; so every webhook is sent what the reference has for it, and the end of
a dispatch can be read off the history (`Ending`).
-/

namespace Admission

namespace MutatingDispatch

open Mutation

variable {σ : Type}

/-! ## 1. One step -/

theorem afterResponse_allowed (scheme : Scheme) (webhook : String) {response : ReviewResponse}
    {patch : Patch} (objects : Versioned) (ha : response.allowed = true)
    (hp : patchOf response = .ok patch) :
    afterResponse scheme webhook response objects =
      match amend scheme webhook patch objects.object with
      | .error e => .error (.status e)
      | .ok object => .ok (decide (patch ≠ []),
          { objects with object := object, dirty := objects.dirty || decide (patch ≠ []) }) := by
  unfold afterResponse
  rw [if_pos ha, hp]
  cases patch with
  | nil => simp [amend]
  | cons operation rest =>
    unfold patched amend
    rw [if_neg (List.cons_ne_nil _ _)]
    cases objects.object with
    | none => rfl
    | some object =>
      dsimp only
      cases patchObject (operation :: rest) object with
      | error e => rfl
      | ok object => simp [bind, Except.bind, pure, Except.pure]

section Step

variable (caller : Caller σ) (scheme : Scheme) (request : Request) (index : Nat)
  (invocation : Invocation) (run : Run σ)

/-- What a run holds; before the first webhook, the objects as they were submitted. -/
def Run.held (request : Request) (run : Run σ) : Versioned :=
  run.objects.getD (Versioned.submitted request)

theorem objectsFor_eq (kind : GroupVersionKind) :
    objectsFor scheme request kind run.objects =
      (run.held request).convertTo scheme.convert kind := by
  unfold objectsFor Run.held
  cases run.objects <;> rfl

theorem step_unconvertible {e : StatusError}
    (h : (run.held request).convertTo scheme.convert invocation.kind = .error e) :
    step caller scheme request index invocation run = (some e, run) := by
  unfold step
  rw [objectsFor_eq, h]

/-- **What a webhook that is called does to the run.**  It ends the request with what becomes of it, or else
leaves the object that the reference says; and it writes what its call leaves behind, its counts and, if the
request goes on, a note about it. -/
theorem step_written {objects : Versioned} {report : CallReport} {world : σ}
    (h : (run.held request).convertTo scheme.convert invocation.kind = .ok objects)
    (hcall : caller.call request invocation objects run.world = (report, world)) :
    let fate := fateOn scheme invocation.webhook report objects.object
    let writes := report.effects invocation.webhook request.operation ++
      fate.counted invocation.webhook request.operation
    ∃ after, step caller scheme request index invocation run = (fate.error?, after) ∧
      after.reports = run.reports ++ [report] ∧ after.world = world ∧
      match conclude scheme invocation.webhook report objects.object with
      | .error _ => after.objects = some objects ∧ after.tally = Effect.applyAll run.tally writes
      | .ok object =>
        after.objects =
          some { objects with object := object, dirty := objects.dirty || report.patches } ∧
        after.tally = Effect.applyAll run.tally (writes ++ [turnNote invocation.webhook index report]) := by
  unfold step
  rw [objectsFor_eq, h]
  dsimp only
  rw [hcall]
  dsimp only
  have happlyAll : ∀ (tally : Tally) (xs ys : List Effect),
      Effect.applyAll (Effect.applyAll tally xs) ys = Effect.applyAll tally (xs ++ ys) :=
    fun tally xs ys => List.foldl_append.symm
  unfold conclude fateOn turnNote CallReport.patches
  rw [CallReport.abort?_eq_error?]
  unfold CallReport.patch? CallReport.fate
  cases report.outcome with
  | error failure =>
    dsimp only [Except.bind]
    rw [Policy.evaluate_eq]
    cases herror : (failure.fate invocation.webhook).error? with
    | some e => exact ⟨_, rfl, rfl, rfl, rfl, happlyAll ..⟩
    | none =>
      refine ⟨_, rfl, rfl, rfl, ?_, ?_⟩
      · simp
      · dsimp only
        rw [happlyAll, List.append_assoc]
  | ok response =>
    dsimp only [Except.bind]
    by_cases ha : response.allowed = true
    · rw [if_pos ha, if_pos ha, if_pos ha]
      cases hp : patchOf response with
      | error e =>
        have hafter : afterResponse scheme invocation.webhook.name response objects =
            .error (.status e) := by
          unfold afterResponse
          rw [if_pos ha, hp]
        rw [hafter]
        exact ⟨_, rfl, rfl, rfl, rfl, happlyAll ..⟩
      | ok patch =>
        rw [afterResponse_allowed scheme invocation.webhook.name objects ha hp]
        dsimp only [bind, Except.bind, Fate.error?]
        cases amend scheme invocation.webhook.name patch objects.object with
        | error e => exact ⟨_, rfl, rfl, rfl, rfl, happlyAll ..⟩
        | ok object =>
          refine ⟨_, rfl, rfl, rfl, rfl, ?_⟩
          show _ = Effect.applyAll run.tally
            (report.effects invocation.webhook request.operation ++ [] ++ [_])
          rw [List.append_nil, ← happlyAll]
          rfl
    · have hafter : afterResponse scheme invocation.webhook.name response objects =
          .error (.rejected (.webhookDenied invocation.webhook.name response.result)) := by
        unfold afterResponse
        rw [if_neg ha]
      rw [if_neg ha, if_neg ha, hafter]
      exact ⟨_, rfl, rfl, rfl, rfl, happlyAll ..⟩

theorem step_tallies {objects : Versioned} {report : CallReport} {world : σ}
    (h : (run.held request).convertTo scheme.convert invocation.kind = .ok objects)
    (hcall : caller.call request invocation objects run.world = (report, world)) :
    let fate := fateOn scheme invocation.webhook report objects.object
    ∃ after notes, step caller scheme request index invocation run = (fate.error?, after) ∧
      after.reports = run.reports ++ [report] ∧
      (∀ note ∈ notes, ∃ key value, note = Effect.annotate key value) ∧
      after.tally = Effect.applyAll run.tally (report.effects invocation.webhook request.operation ++
        (fate.counted invocation.webhook request.operation ++ notes)) := by
  obtain ⟨after, hstep, hreports, -, hrest⟩ :=
    step_written caller scheme request index invocation run h hcall
  cases hconclude : conclude scheme invocation.webhook report objects.object with
  | error e =>
    rw [hconclude] at hrest
    refine ⟨after, [], hstep, hreports, by simp, ?_⟩
    rw [List.append_nil]
    exact hrest.2
  | ok object =>
    rw [hconclude] at hrest
    refine ⟨after, [turnNote invocation.webhook index report], hstep, hreports, ?_, ?_⟩
    · intro note hnote
      rw [List.mem_singleton.1 hnote, turnNote]
      cases report.outcome <;> exact ⟨_, _, rfl⟩
    · rw [← List.append_assoc]
      exact hrest.2

theorem step_recorded {objects : Versioned} {report : CallReport} {world : σ}
    (h : (run.held request).convertTo scheme.convert invocation.kind = .ok objects)
    (hcall : caller.call request invocation objects run.world = (report, world)) :
    match conclude scheme invocation.webhook report objects.object with
    | .error e => ∃ after, step caller scheme request index invocation run = (some e, after) ∧
        after.reports = run.reports ++ [report] ∧ after.world = world ∧
        after.objects = some objects ∧
        after.tally.record = Effect.noteAll run.tally.record
          (report.effects invocation.webhook request.operation)
    | .ok object => ∃ after, step caller scheme request index invocation run = (none, after) ∧
        after.reports = run.reports ++ [report] ∧ after.world = world ∧
        after.objects =
          some { objects with object := object, dirty := objects.dirty || report.patches } ∧
        after.tally.record = Effect.note (Effect.noteAll run.tally.record
          (report.effects invocation.webhook request.operation))
            (turnNote invocation.webhook index report) := by
  obtain ⟨after, hs, hreports, hworld, hrest⟩ :=
    step_written caller scheme request index invocation run h hcall
  rw [error?_fateOn] at hs
  have hcounted : ∀ (record : AuditRecord) (fate : Fate),
      Effect.noteAll record (report.effects invocation.webhook request.operation ++
        fate.counted invocation.webhook request.operation) =
      Effect.noteAll record (report.effects invocation.webhook request.operation) := fun record fate =>
    Effect.noteAll_congr (by rw [Effect.shown_append, Fate.shown_counted, List.append_nil]) record
  cases hconclude : conclude scheme invocation.webhook report objects.object with
  | error e =>
    rw [hconclude] at hs hrest
    refine ⟨after, hs, hreports, hworld, hrest.1, ?_⟩
    rw [hrest.2, Effect.record_applyAll, hcounted]
  | ok object =>
    rw [hconclude] at hs hrest
    refine ⟨after, hs, hreports, hworld, hrest.1, ?_⟩
    rw [hrest.2, Effect.record_applyAll, ← hcounted]
    exact List.foldl_append

/-- **A webhook that is called** has the effect on the object that the reference says. -/
theorem step_called {objects : Versioned} {report : CallReport} {world : σ}
    (h : (run.held request).convertTo scheme.convert invocation.kind = .ok objects)
    (hcall : caller.call request invocation objects run.world = (report, world)) :
    match conclude scheme invocation.webhook report objects.object with
    | .error e => ∃ after, step caller scheme request index invocation run = (some e, after) ∧
        after.reports = run.reports ++ [report] ∧ after.world = world
    | .ok object => ∃ after, step caller scheme request index invocation run = (none, after) ∧
        after.reports = run.reports ++ [report] ∧ after.world = world ∧
        after.objects =
          some { objects with object := object, dirty := objects.dirty || report.patches } := by
  have hstep := step_recorded caller scheme request index invocation run h hcall
  cases hconclude : conclude scheme invocation.webhook report objects.object with
  | error e =>
    rw [hconclude] at hstep
    obtain ⟨after, hs, hreports, hworld, -⟩ := hstep
    exact ⟨after, hs, hreports, hworld⟩
  | ok object =>
    rw [hconclude] at hstep
    obtain ⟨after, hs, hreports, hworld, hobjects, -⟩ := hstep
    exact ⟨after, hs, hreports, hworld, hobjects⟩

end Step

/-! ## 2. Runs -/

/-- The history of calls with their reports. -/
def historyOf (past : List (Invocation × Versioned)) (reports : List CallReport) : History :=
  (past.map (·.1)).zip reports

/-- What holds where a webhook is called. -/
structure Reached (scheme : Scheme) (request : Request) (history : History)
    (invocation : Invocation) (objects : Versioned) : Prop where
  /-- The calls before went well or failed open. -/
  passes : ∀ call ∈ history, call.2.Passes call.1.webhook
  kind : objects.kind = invocation.kind
  object : objectIn scheme request history invocation.kind = .ok objects.object
  oldObject : oldObjectIn scheme request history invocation.kind = .ok objects.oldObject

/-- **The calls of a run are those of the reference.** -/
structure Calls (caller : Caller σ) (scheme : Scheme) (request : Request) (world : σ)
    (past : List (Invocation × Versioned)) (reports : List CallReport) (after : σ) : Prop where
  /-- They are made one after another. -/
  sequence : ValidatingDispatch.callAll caller request past world = (reports, after)
  reached : ∀ i p, past[i]? = some p →
    Reached scheme request ((historyOf past reports).take i) p.1 p.2

/-- **What a run holds is what the reference has** after the calls so far. -/
structure Run.Follows (caller : Caller σ) (scheme : Scheme) (request : Request) (world : σ)
    (past : List (Invocation × Versioned)) (run : Run σ) : Prop where
  calls : Calls caller scheme request world past run.reports run.world
  object : objectAfter scheme request (historyOf past run.reports) =
    .ok ((run.held request).kind, (run.held request).object)
  oldObject : oldObjectAfter scheme request (historyOf past run.reports) =
    .ok ((run.held request).kind, (run.held request).oldObject)
  dirty : (run.held request).dirty = (historyOf past run.reports).any (·.2.patches)

/-- **How the calls come to an end.** -/
inductive Halt (caller : Caller σ) (scheme : Scheme) (request : Request) (world : σ)
    (invocations : List Invocation) : Option StatusError → Run σ → Prop where
  /-- All webhooks have been called. -/
  | finished {past run} (all : past.map (·.1) = invocations)
      (follows : Run.Follows caller scheme request world past run) :
      Halt caller scheme request world invocations none run
  /-- The objects do not convert to the kind of the next webhook. -/
  | unconvertible {past run invocation rest e}
      (next : past.map (·.1) ++ invocation :: rest = invocations)
      (follows : Run.Follows caller scheme request world past run)
      (failed : (run.held request).convertTo scheme.convert invocation.kind = .error e) :
      Halt caller scheme request world invocations (some e) run
  /-- A call ends the request. -/
  | aborted {past reports run invocation objects report rest e}
      (next : past.map (·.1) ++ invocation :: rest = invocations)
      (length : past.length = reports.length)
      (reached : Reached scheme request (historyOf past reports) invocation objects)
      (reports_eq : run.reports = reports ++ [report])
      (calls : Calls caller scheme request world (past ++ [(invocation, objects)]) run.reports
        run.world)
      (failed : conclude scheme invocation.webhook report objects.object = .error e) :
      Halt caller scheme request world invocations (some e) run

section Runs

variable {caller : Caller σ} {scheme : Scheme} {request : Request} {world : σ}
  {past : List (Invocation × Versioned)} {reports : List CallReport} {run : Run σ}

theorem Calls.length {after : σ} (h : Calls caller scheme request world past reports after) :
    past.length = reports.length := by
  simpa [h.sequence] using (ValidatingDispatch.length_callAll caller request past world).symm

theorem historyOf_concat (h : past.length = reports.length) (p : Invocation × Versioned)
    (report : CallReport) :
    historyOf (past ++ [p]) (reports ++ [report]) = historyOf past reports ++ [(p.1, report)] := by
  unfold historyOf
  rw [List.map_append, List.zip_append (by simpa using h)]
  rfl

theorem Run.Follows.objectIn_eq (h : run.Follows caller scheme request world past)
    (kind : GroupVersionKind) :
    objectIn scheme request (historyOf past run.reports) kind =
      Versioned.reexpress scheme.convert (run.held request).kind kind (run.held request).object := by
  unfold objectIn
  rw [h.object]
  rfl

theorem Run.Follows.oldObjectIn_eq (h : run.Follows caller scheme request world past)
    (kind : GroupVersionKind) :
    oldObjectIn scheme request (historyOf past run.reports) kind =
      Versioned.reexpress scheme.convert (run.held request).kind kind
        (run.held request).oldObject := by
  unfold oldObjectIn
  rw [h.oldObject]
  rfl

theorem Run.Follows.reached (h : run.Follows caller scheme request world past)
    {invocation : Invocation} {objects : Versioned}
    (hc : (run.held request).convertTo scheme.convert invocation.kind = .ok objects) :
    Reached scheme request (historyOf past run.reports) invocation objects ∧
      objects.dirty = (run.held request).dirty := by
  rw [Versioned.convertTo_eq] at hc
  obtain ⟨object, ho, hc⟩ := bind_eq_ok.1 hc
  obtain ⟨oldObject, hold, hc⟩ := bind_eq_ok.1 hc
  cases hc
  exact ⟨⟨passes_of_objectAfter h.object, rfl, (h.objectIn_eq _).trans ho,
    (h.oldObjectIn_eq _).trans hold⟩, rfl⟩

theorem Run.Follows.concat (h : run.Follows caller scheme request world past)
    {invocation : Invocation} {objects : Versioned} {report : CallReport} {after : σ}
    (hr : Reached scheme request (historyOf past run.reports) invocation objects)
    (hcall : caller.call request invocation objects run.world = (report, after)) :
    Calls caller scheme request world (past ++ [(invocation, objects)]) (run.reports ++ [report])
      after where
  sequence := by
    rw [ValidatingDispatch.callAll_append, h.calls.sequence]
    simp [ValidatingDispatch.callAll, hcall]
  reached i p hp := by
    have hlen := h.calls.length
    rw [historyOf_concat hlen]
    have hhist : (historyOf past run.reports).length = past.length := by
      simp [historyOf, hlen]
    by_cases hi : i < past.length
    · rw [List.take_append_of_le_length (by omega)]
      exact h.calls.reached i p (by rwa [List.getElem?_append_left hi] at hp)
    · obtain ⟨hlt, hp⟩ := List.getElem?_eq_some_iff.1 hp
      have hi' : i = past.length := by simp at hlt; omega
      subst hi'
      rw [List.getElem_concat_length rfl] at hp
      subst hp
      rw [List.take_left' hhist]
      exact hr

theorem Run.follows_start (caller : Caller σ) (scheme : Scheme) (request : Request) (tally : Tally)
    (world : σ) :
    Run.Follows caller scheme request world [] ⟨none, tally, [], world⟩ where
  calls := ⟨rfl, fun _ _ h => by cases h⟩
  object := rfl
  oldObject := rfl
  dirty := rfl

/-- **One step keeps to the reference.**  Either the webhook is not called, or it is called with what
the reference has for it, and then the outcome is that of the reference. -/
theorem Run.Follows.step (h : run.Follows caller scheme request world past) (index : Nat)
    (invocation : Invocation) :
    (∃ e, (run.held request).convertTo scheme.convert invocation.kind = .error e ∧
      MutatingDispatch.step caller scheme request index invocation run = (some e, run)) ∨
    ∃ objects report after,
      Reached scheme request (historyOf past run.reports) invocation objects ∧
      after.reports = run.reports ++ [report] ∧
      Calls caller scheme request world (past ++ [(invocation, objects)]) after.reports
        after.world ∧
      ((∃ e, conclude scheme invocation.webhook report objects.object = .error e ∧
          MutatingDispatch.step caller scheme request index invocation run = (some e, after)) ∨
        (MutatingDispatch.step caller scheme request index invocation run = (none, after) ∧
          after.Follows caller scheme request world (past ++ [(invocation, objects)]))) := by
  cases hc : (run.held request).convertTo scheme.convert invocation.kind with
  | error e =>
    exact .inl ⟨e, rfl, step_unconvertible caller scheme request index invocation run hc⟩
  | ok objects =>
    right
    generalize hcall : caller.call request invocation objects run.world = called
    obtain ⟨report, next⟩ := called
    obtain ⟨hreached, hdirty⟩ := h.reached hc
    have hcalls := h.concat hreached hcall
    have hhist := historyOf_concat h.calls.length (invocation, objects) report
    have hstep := step_called caller scheme request index invocation run hc hcall
    cases hconc : conclude scheme invocation.webhook report objects.object with
    | error e =>
      rw [hconc] at hstep
      obtain ⟨after, hs, hreports, rfl⟩ := hstep
      exact ⟨objects, report, after, hreached, hreports, hreports ▸ hcalls, .inl ⟨e, hconc, hs⟩⟩
    | ok object =>
      rw [hconc] at hstep
      obtain ⟨after, hs, hreports, rfl, hobjects⟩ := hstep
      have hheld : after.held request =
          { objects with object := object, dirty := objects.dirty || report.patches } := by
        rw [Run.held, hobjects, Option.getD_some]
      refine ⟨objects, report, after, hreached, hreports, hreports ▸ hcalls, .inr ⟨hs, ?_⟩⟩
      refine ⟨hreports ▸ hcalls, ?_, ?_, ?_⟩
      · rw [hreports, hhist, objectAfter_concat, hreached.object, hheld, ← hreached.kind]
        show (conclude scheme invocation.webhook report objects.object >>= _) = _
        rw [hconc]
        rfl
      · rw [hreports, hhist, oldObjectAfter_concat, hreached.oldObject, hheld, ← hreached.kind]
        rfl
      · rw [hreports, hhist, List.any_append, ← h.dirty, ← hdirty, hheld]
        simp

/-- **A run keeps to the reference to its end.** -/
theorem Run.Follows.steps (h : run.Follows caller scheme request world past) (index : Nat)
    (rest : List Invocation) :
    Halt caller scheme request world (past.map (·.1) ++ rest)
      (steps caller scheme request index rest run).1
      (steps caller scheme request index rest run).2 := by
  induction rest generalizing index past run with
  | nil => exact .finished (by simp) h
  | cons invocation rest ih =>
    unfold MutatingDispatch.steps
    obtain ⟨e, hc, hs⟩ | ⟨objects, report, after, hreached, hreports, hcalls, hend⟩ :=
      h.step index invocation
    · rw [hs]
      exact .unconvertible rfl h hc
    · obtain ⟨e, hconc, hs⟩ | ⟨hs, hnext⟩ := hend
      · rw [hs]
        exact .aborted rfl h.calls.length hreached hreports hcalls hconc
      · rw [hs]
        simpa using ih hnext (index + 1)

end Runs

/-! ## 3. The end of a dispatch -/

/-- **How a dispatch ends**, by its history: the webhooks with the reports of those called. -/
inductive Ending (scheme : Scheme) (request : Request) (invocations : List Invocation)
    (after : Dispatched σ) : Prop where
  /-- The objects do not convert to the kind of the next webhook, the object or else the old one. -/
  | unconvertible {invocation e}
      (next : invocations[after.reports.length]? = some invocation)
      (passed : ∃ held, objectAfter scheme request (invocations.zip after.reports) = .ok held)
      (failed : objectIn scheme request (invocations.zip after.reports) invocation.kind = .error e ∨
        ∃ object, objectIn scheme request (invocations.zip after.reports) invocation.kind =
            .ok object ∧
          oldObjectIn scheme request (invocations.zip after.reports) invocation.kind = .error e)
      (verdict : after.verdict = .error e) (same : after.request = request)
  /-- The last call ends the request. -/
  | aborted {earlier invocation report object e}
      (history : invocations.zip after.reports = earlier ++ [(invocation, report)])
      (reached : objectIn scheme request earlier invocation.kind = .ok object)
      (failed : conclude scheme invocation.webhook report object = .error e)
      (verdict : after.verdict = .error e) (same : after.request = request)
  /-- All webhooks have been called, and none gave a patch. -/
  | untouched (all : after.reports.length = invocations.length)
      (passed : ∃ held, objectAfter scheme request (invocations.zip after.reports) = .ok held)
      (unpatched : ∀ call ∈ invocations.zip after.reports, call.2.patches = false)
      (verdict : after.verdict = .ok ()) (same : after.request = request)
  /-- All webhooks have been called, and the request has the object that they have left. -/
  | changed {object} (all : after.reports.length = invocations.length)
      (patched : ∃ call ∈ invocations.zip after.reports, call.2.patches = true)
      (left : objectIn scheme request (invocations.zip after.reports) request.kind = .ok object)
      (verdict : after.verdict = .ok ())
      (changed : after.request = { request with object := object })
  /-- What they have left does not convert to the kind of the request. -/
  | unreturnable {e} (all : after.reports.length = invocations.length)
      (patched : ∃ call ∈ invocations.zip after.reports, call.2.patches = true)
      (passed : ∃ held, objectAfter scheme request (invocations.zip after.reports) = .ok held)
      (failed : objectIn scheme request (invocations.zip after.reports) request.kind = .error e)
      (verdict : after.verdict = .error e) (same : after.request = request)

section End

variable {caller : Caller σ} {scheme : Scheme} {request : Request} {world : σ}
  {invocations : List Invocation} {past : List (Invocation × Versioned)} {run : Run σ}

/-- The webhooks called are the first, and the history is theirs. -/
theorem first_of_append {reports : List CallReport} (rest : List Invocation)
    (hlen : past.length = reports.length) (h : past.map (·.1) ++ rest = invocations) :
    past.map (·.1) = invocations.take reports.length ∧
      historyOf past reports = invocations.zip reports := by
  subst h
  have hl : (past.map (·.1)).length = reports.length := by simpa using hlen
  have hzip : (past.map (·.1) ++ rest).zip (reports ++ []) =
      (past.map (·.1)).zip reports ++ rest.zip [] := List.zip_append hl
  exact ⟨(List.take_left' hl).symm, by simpa [historyOf] using hzip.symm⟩

/-- **The request gets the object that the webhooks have left**, if they have changed it. -/
theorem Run.Follows.admitted (h : run.Follows caller scheme request world past) :
    admitted scheme request run.objects =
      if (historyOf past run.reports).any (·.2.patches) then do
        let object ← objectIn scheme request (historyOf past run.reports) request.kind
        return { request with object := object }
      else .ok request := by
  rw [← h.dirty, h.objectIn_eq]
  have hsome := isSome_of_objectAfter h.object
  have hnone := fun hn => patches_eq_false_of_objectless hn h.object
  have hdirty := h.dirty
  unfold Run.held at hsome hdirty ⊢
  cases hobjects : run.objects with
  | none => rfl
  | some v =>
    obtain ⟨kind, object, oldObject, dirty⟩ := v
    simp only [hobjects, Option.getD_some] at hsome hdirty ⊢
    cases dirty with
    | false => cases object <;> rfl
    | true =>
      cases object with
      | none =>
        -- a patch was given, so there was an object, and it is still there
        obtain ⟨call, hm, hp⟩ := List.any_eq_true.1 hdirty.symm
        have hn : request.object = none := by simpa using hsome.symm
        rw [hnone hn call hm] at hp
        cases hp
      | some object =>
        unfold MutatingDispatch.admitted
        dsimp only
        unfold Versioned.reexpress
        by_cases hk : kind = request.kind
        · rw [if_pos hk, if_pos hk]; rfl
        · rw [if_neg hk, if_neg hk]; rfl

theorem Halt.calls {stop : Option StatusError}
    (h : Halt caller scheme request world invocations stop run) :
    ∃ past, past.map (·.1) = invocations.take run.reports.length ∧
      historyOf past run.reports = invocations.zip run.reports ∧
      Calls caller scheme request world past run.reports run.world := by
  cases h with
  | @finished past _ all follows =>
    obtain ⟨hpast, hhist⟩ := first_of_append [] follows.calls.length (by simpa using all)
    exact ⟨past, hpast, hhist, follows.calls⟩
  | @unconvertible past _ _ _ _ next follows _ =>
    obtain ⟨hpast, hhist⟩ := first_of_append _ follows.calls.length next
    exact ⟨past, hpast, hhist, follows.calls⟩
  | @aborted past _ _ invocation objects _ rest _ next _ _ _ calls _ =>
    have hnext : (past ++ [(invocation, objects)]).map (·.1) ++ rest = invocations := by
      simpa using next
    obtain ⟨hpast, hhist⟩ := first_of_append _ calls.length hnext
    exact ⟨_, hpast, hhist, calls⟩

section Dispatch

variable {stop : Option StatusError} {tally : Tally}
  (hrun : steps caller scheme request 0 invocations ⟨none, tally, [], world⟩ = (stop, run))
include hrun

theorem dispatch_reports :
    (dispatch caller scheme request tally invocations world).reports = run.reports ∧
      (dispatch caller scheme request tally invocations world).world = run.world := by
  unfold dispatch
  rw [hrun]
  cases stop with
  | some e => exact ⟨rfl, rfl⟩
  | none =>
    dsimp only
    cases MutatingDispatch.admitted scheme request run.objects <;> exact ⟨rfl, rfl⟩

theorem dispatch_tally :
    (dispatch caller scheme request tally invocations world).tally = run.tally := by
  unfold dispatch
  rw [hrun]
  cases stop with
  | some e => rfl
  | none =>
    dsimp only
    cases MutatingDispatch.admitted scheme request run.objects <;> rfl

omit hrun in
theorem dispatch_finished
    (hrun : steps caller scheme request 0 invocations ⟨none, tally, [], world⟩ = (none, run))
    {result : Except StatusError Request}
    (h : MutatingDispatch.admitted scheme request run.objects = result) :
    (dispatch caller scheme request tally invocations world).verdict = result.map (fun _ => ()) ∧
      (dispatch caller scheme request tally invocations world).request =
        result.toOption.getD request := by
  unfold dispatch
  rw [hrun]
  dsimp only
  rw [h]
  cases result <;> exact ⟨rfl, rfl⟩

/-- **A dispatch ends as its history says.** -/
theorem Halt.ending (h : Halt caller scheme request world invocations stop run) :
    Ending scheme request invocations (dispatch caller scheme request tally invocations world) := by
  have hreports := (dispatch_reports hrun).1
  have hstop : ∀ e, stop = some e →
      (dispatch caller scheme request tally invocations world).verdict = .error e ∧
        (dispatch caller scheme request tally invocations world).request = request := by
    rintro e rfl
    unfold dispatch
    rw [hrun]
    exact ⟨rfl, rfl⟩
  cases h with
  | @finished past _ all follows =>
    have hlen := follows.calls.length
    have hhist := (first_of_append [] hlen (by simpa using all)).2
    have hall : run.reports.length = invocations.length := by simp [← all, hlen]
    have hpassed := follows.object
    have hadmitted := follows.admitted
    rw [hhist] at hadmitted hpassed
    rw [← hreports] at hadmitted hpassed hall
    by_cases hp : (invocations.zip (dispatch caller scheme request tally invocations
        world).reports).any (·.2.patches)
    · have hpatched := List.any_eq_true.1 hp
      rw [if_pos hp] at hadmitted
      cases hleft : objectIn scheme request (invocations.zip (dispatch caller scheme request tally
          invocations world).reports) request.kind with
      | error e =>
        rw [hleft] at hadmitted
        obtain ⟨hv, hr⟩ := dispatch_finished hrun hadmitted
        exact .unreturnable hall hpatched ⟨_, hpassed⟩ hleft hv hr
      | ok object =>
        rw [hleft] at hadmitted
        obtain ⟨hv, hr⟩ := dispatch_finished hrun hadmitted
        exact .changed hall hpatched hleft hv hr
    · rw [if_neg hp] at hadmitted
      obtain ⟨hv, hr⟩ := dispatch_finished hrun hadmitted
      exact .untouched hall ⟨_, hpassed⟩ (by simpa using hp) hv hr
  | @unconvertible past _ invocation rest e next follows failed =>
    have hlen := follows.calls.length
    have hhist := (first_of_append _ hlen next).2
    have hpassed := follows.object
    have hobject := follows.objectIn_eq invocation.kind
    have holdObject := follows.oldObjectIn_eq invocation.kind
    rw [hhist, ← hreports] at hpassed hobject holdObject
    obtain ⟨hv, hr⟩ := hstop e rfl
    have hnext : invocations[(dispatch caller scheme request tally invocations
        world).reports.length]? = some invocation := by
      rw [hreports, ← next, ← hlen, List.getElem?_append_right (by simp)]
      simp
    refine .unconvertible hnext ⟨_, hpassed⟩ ?_ hv hr
    rw [hobject, holdObject]
    rw [Versioned.convertTo_eq] at failed
    rcases bind_eq_error.1 failed with failed | ⟨object, ho, failed⟩
    · exact .inl failed
    · rcases bind_eq_error.1 failed with failed | ⟨oldObject, -, failed⟩
      · exact .inr ⟨object, ho, failed⟩
      · cases failed
  | @aborted past reports _ invocation objects report rest e next length reached reports_eq calls
      failed =>
    obtain ⟨hv, hr⟩ := hstop e rfl
    have hnext : (past ++ [(invocation, objects)]).map (·.1) ++ rest = invocations := by
      simpa using next
    have hhist : invocations.zip (dispatch caller scheme request tally invocations world).reports =
        historyOf past reports ++ [(invocation, report)] := by
      rw [hreports, ← (first_of_append _ calls.length hnext).2, reports_eq, historyOf_concat length]
    exact .aborted hhist reached.object failed hv hr

end Dispatch

section Verdict

variable {after : Dispatched σ}

theorem Ending.passed_or_aborted (h : Ending scheme request invocations after) :
    (∃ held, objectAfter scheme request (invocations.zip after.reports) = .ok held) ∨
    ∃ earlier invocation report object e,
      invocations.zip after.reports = earlier ++ [(invocation, report)] ∧
      objectIn scheme request earlier invocation.kind = .ok object ∧
      conclude scheme invocation.webhook report object = .error e ∧ after.verdict = .error e := by
  cases h with
  | unconvertible next passed failed verdict same => exact .inl passed
  | aborted history reached failed verdict same =>
    exact .inr ⟨_, _, _, _, _, history, reached, failed, verdict⟩
  | untouched all passed unpatched verdict same => exact .inl passed
  | changed all patched left verdict changed =>
    obtain ⟨held, hheld, -⟩ := bind_eq_ok.1 left
    exact .inl ⟨held, hheld⟩
  | unreturnable all patched passed failed verdict same => exact .inl passed

theorem Ending.of_ok (h : Ending scheme request invocations after) (hok : after.verdict = .ok ()) :
    after.reports.length = invocations.length ∧
      ∀ call ∈ invocations.zip after.reports, call.2.Passes call.1.webhook := by
  refine ⟨?_, ?_⟩
  · cases h with
    | unconvertible _ _ _ verdict _ => rw [verdict] at hok; cases hok
    | aborted _ _ _ verdict _ => rw [verdict] at hok; cases hok
    | untouched all _ _ _ _ => exact all
    | changed all _ _ _ _ => exact all
    | unreturnable _ _ _ _ verdict _ => rw [verdict] at hok; cases hok
  · obtain ⟨held, hheld⟩ | ⟨_, _, _, _, _, -, -, -, verdict⟩ := h.passed_or_aborted
    · exact passes_of_objectAfter hheld
    · rw [verdict] at hok
      cases hok

theorem Ending.of_abort? (h : Ending scheme request invocations after)
    {call : Invocation × CallReport} (hm : call ∈ invocations.zip after.reports) {e : StatusError}
    (ha : call.2.abort? call.1.webhook = some e) : after.verdict = .error e := by
  have hends : ¬ call.2.Passes call.1.webhook := by
    rw [← CallReport.abort?_eq_none_iff, ha]
    simp
  obtain ⟨held, hheld⟩ | ⟨earlier, invocation, report, object, e', history, reached, failed,
    verdict⟩ := h.passed_or_aborted
  · exact absurd (passes_of_objectAfter hheld call hm) hends
  · obtain ⟨held, hheld, -⟩ := bind_eq_ok.1 reached
    rw [history, List.mem_append, List.mem_singleton] at hm
    rcases hm with hm | rfl
    · exact absurd (passes_of_objectAfter hheld call hm) hends
    · unfold conclude at failed
      rw [ha] at failed
      cases failed
      exact verdict

/-- A patch for a request without an object ends it, with an error of this side. -/
theorem Ending.of_objectless (h : Ending scheme request invocations after)
    (hn : request.object = none) {call : Invocation × CallReport}
    (hm : call ∈ invocations.zip after.reports) (hp : call.2.patches = true) :
    after.verdict = .error (objectless call.1.webhook.name) := by
  obtain ⟨held, hheld⟩ | ⟨earlier, invocation, report, object, e, history, reached, failed,
    verdict⟩ := h.passed_or_aborted
  · rw [patches_eq_false_of_objectless hn hheld call hm] at hp
    cases hp
  · obtain ⟨held, hheld, -⟩ := bind_eq_ok.1 reached
    have hnone : object = none := by simpa [hn] using isSome_of_objectIn reached
    -- none of the earlier calls gave a patch, so it is the last one
    rw [history, List.mem_append, List.mem_singleton] at hm
    rcases hm with hm | rfl
    · rw [patches_eq_false_of_objectless hn hheld call hm] at hp
      cases hp
    · rw [hnone, conclude_none_of_patches hp] at failed
      cases failed
      exact verdict

end Verdict

end End

/-! ## 4. Every dispatch -/

theorem exists_halt (caller : Caller σ) (scheme : Scheme) (request : Request) (tally : Tally)
    (invocations : List Invocation) (world : σ) : ∃ stop run,
    steps caller scheme request 0 invocations ⟨none, tally, [], world⟩ = (stop, run) ∧
      Halt caller scheme request world invocations stop run :=
  ⟨_, _, rfl, (Run.follows_start caller scheme request tally world).steps 0 invocations⟩

theorem exists_call (caller : Caller σ) (scheme : Scheme) (request : Request) (tally : Tally)
    (invocations : List Invocation) (world : σ) {i : Nat} {report : CallReport}
    (hr : (dispatch caller scheme request tally invocations world).reports[i]? = some report) :
    ∃ invocation objects before, invocations[i]? = some invocation ∧
      Reached scheme request ((invocations.zip
        (dispatch caller scheme request tally invocations world).reports).take i) invocation objects ∧
      report = (caller.call request invocation objects before).1 := by
  obtain ⟨stop, run, hrun, hhalt⟩ := exists_halt caller scheme request tally invocations world
  obtain ⟨past, hpast, hhist, hcalls⟩ := hhalt.calls
  obtain ⟨hreports, hworld⟩ := dispatch_reports hrun
  rw [← hreports] at hpast hhist
  rw [← hreports, ← hworld] at hcalls
  obtain ⟨hi, -⟩ := List.getElem?_eq_some_iff.1 hr
  have hp : past[i]? = some (past.get ⟨i, hcalls.length.symm ▸ hi⟩) := List.getElem?_eq_getElem _
  have hr' : (ValidatingDispatch.callAll caller request past world).1[i]? = some report := by
    rw [hcalls.sequence]
    exact hr
  obtain ⟨before, hreport⟩ := ValidatingDispatch.getElem?_callAll caller request hp hr'
  refine ⟨_, _, before, ?_, hhist ▸ hcalls.reached i _ hp, hreport⟩
  have hinvocation := congrArg (·[i]?) hpast
  simp only [List.getElem?_map, hp, List.getElem?_take, if_pos hi] at hinvocation
  exact hinvocation.symm

/-- What a dispatch sends a webhook is what the reference has for it. -/
theorem exists_reached (caller : Caller σ) (scheme : Scheme) (request : Request) (tally : Tally)
    (invocations : List Invocation) (world : σ) {i : Nat} {report : CallReport} {review : Review}
    (hr : (dispatch caller scheme request tally invocations world).reports[i]? = some report)
    (hs : report.sent = some review) :
    ∃ invocation objects, invocations[i]? = some invocation ∧
      Reached scheme request ((invocations.zip
        (dispatch caller scheme request tally invocations world).reports).take i) invocation objects ∧
      review = Review.ask request invocation objects.object objects.oldObject := by
  obtain ⟨invocation, objects, before, hi, hreached, rfl⟩ :=
    exists_call caller scheme request tally invocations world hr
  exact ⟨invocation, objects, hi, hreached, Caller.sent_call caller request _ _ before hs⟩

/-- **A dispatch does what the reference says.**  The webhooks are called one after another, each only
if all calls before it went well or failed open, and with the objects that the reference has for it
after those calls; if conversions compose, the old object is that of the request converted at once.
The dispatch ends as its history says: with the error of the first conversion or call that fails, or
with the object that the webhooks have left, or, if none gave a patch, with the request as it was. -/
theorem dispatch_refines_reference (caller : Caller σ) (scheme : Scheme) (request : Request)
    (tally : Tally) (invocations : List Invocation) (world : σ) :
    let after := dispatch caller scheme request tally invocations world
    ∃ past : List (Invocation × Versioned),
      past.map (·.1) = invocations.take after.reports.length ∧
      ValidatingDispatch.callAll caller request past world = (after.reports, after.world) ∧
      (∀ i p, past[i]? = some p →
        Reached scheme request ((invocations.zip after.reports).take i) p.1 p.2 ∧
        ∀ report review, after.reports[i]? = some report → report.sent = some review →
          review = Review.ask request p.1 p.2.object p.2.oldObject) ∧
      (∀ old, scheme.convert.Composes → request.oldObject = some old →
        scheme.convert old request.kind = .ok old → ∀ p ∈ past, ∃ object,
          p.2.oldObject = some object ∧ scheme.convert old p.1.kind = .ok object) ∧
      Ending scheme request invocations after := by
  intro after
  obtain ⟨stop, run, hrun, hhalt⟩ := exists_halt caller scheme request tally invocations world
  obtain ⟨past, hpast, hhist, hcalls⟩ := hhalt.calls
  obtain ⟨hreports, hworld⟩ := dispatch_reports hrun
  rw [← hreports] at hpast hhist
  rw [← hreports, ← hworld] at hcalls
  refine ⟨past, hpast, hcalls.sequence, fun i p hp => ⟨?_, ?_⟩, ?_, hhalt.ending hrun⟩
  · exact hhist ▸ hcalls.reached i p hp
  · intro report review hr hs
    have hr' : (ValidatingDispatch.callAll caller request past world).1[i]? = some report := by
      rw [hcalls.sequence]
      exact hr
    obtain ⟨before, rfl⟩ := ValidatingDispatch.getElem?_callAll caller request hp hr'
    exact Caller.sent_call caller request p.1 p.2 before hs
  · intro old hcomp hold hkind p hp
    obtain ⟨i, hi⟩ := List.mem_iff_getElem?.1 hp
    exact oldObjectIn_of_composes hcomp hold hkind (hcalls.reached i p hi).oldObject

/-- **A dispatch changes the request altogether or not at all.**  With an error the request is as it
was, whatever failed and whatever patches had been given before.  Without one nothing but the object
has changed, and the object only if a webhook gave a patch.  Where there is no object there is none
afterwards, and a patch for it ends the request with an error of this side. -/
theorem dispatch_atomic (caller : Caller σ) (scheme : Scheme) (request : Request) (tally : Tally)
    (invocations : List Invocation) (world : σ) :
    let after := dispatch caller scheme request tally invocations world
    (∀ e, after.verdict = .error e → after.request = request) ∧
    (after.verdict = .ok () →
      after.request = { request with object := after.request.object } ∧
      after.request.object.isSome = request.object.isSome ∧
      (after.request.object ≠ request.object →
        ∃ call ∈ invocations.zip after.reports, call.2.patches = true)) ∧
    (request.object = none → ∀ call ∈ invocations.zip after.reports, call.2.patches = true →
      ∃ e, after.verdict = .error e ∧ e.code = 500) := by
  intro after
  obtain ⟨stop, run, hrun, hhalt⟩ := exists_halt caller scheme request tally invocations world
  have hend : Ending scheme request invocations after := hhalt.ending hrun
  refine ⟨?_, ?_, ?_⟩
  · intro e he
    cases hend with
    | unconvertible _ _ _ _ same => exact same
    | aborted _ _ _ _ same => exact same
    | untouched _ _ _ _ same => exact same
    | changed _ _ _ verdict _ => rw [verdict] at he; cases he
    | unreturnable _ _ _ _ _ same => exact same
  · intro hok
    cases hend with
    | unconvertible _ _ _ verdict _ => rw [verdict] at hok; cases hok
    | aborted _ _ _ verdict _ => rw [verdict] at hok; cases hok
    | untouched _ _ _ _ same => rw [same]; exact ⟨rfl, rfl, fun h => absurd rfl h⟩
    | changed _ patched left _ changed =>
      rw [changed]
      exact ⟨rfl, isSome_of_objectIn left, fun _ => patched⟩
    | unreturnable _ _ _ _ verdict _ => rw [verdict] at hok; cases hok
  · intro hn call hm hp
    exact ⟨_, hend.of_objectless hn hm hp, rfl⟩

end MutatingDispatch

end Admission
