import Admission.Proofs.Dispatch.Tasks
import Admission.Proofs.Dispatch.Versioned

/-!
# Validating dispatch under every interleaving

A dispatch is one interleaving of its tasks: the calls in the order of the webhooks, and then the
writes as the scheduler has them (`dispatch_eq_outcome`).  What holds of all interleavings therefore
holds of every dispatch, and the main statement, `every_interleaving_calls_all_first_error_decides`,
says it of both.
-/

namespace Admission

namespace ValidatingDispatch

variable {σ : Type}

/-! ## 1. Preparing -/

/-- The webhooks with the objects they are to be called with. -/
def prepare (scheme : Scheme) (request : Request) (invocations : List Invocation) :
    Except StatusError (List (Invocation × Versioned)) :=
  invocations.mapM fun invocation =>
    return (invocation, ← Versioned.ofRequest scheme.convert request invocation.kind)

section Prepare

variable {scheme : Scheme} {request : Request}

theorem mapM_eq_prepare (invocations : List Invocation) :
    (invocations.mapM fun invocation => do
      return (invocation, ← Versioned.ofRequest scheme.convert request invocation.kind)) =
      prepare scheme request invocations := rfl

theorem prepare_cons (invocation : Invocation) (rest : List Invocation) :
    prepare scheme request (invocation :: rest) = do
      let objects ← Versioned.ofRequest scheme.convert request invocation.kind
      let prepared ← prepare scheme request rest
      return (invocation, objects) :: prepared := by
  unfold prepare
  rw [List.mapM_cons]
  cases Versioned.ofRequest scheme.convert request invocation.kind <;> rfl

theorem prepare_ok {invocations : List Invocation} {prepared : List (Invocation × Versioned)}
    (h : prepare scheme request invocations = .ok prepared) :
    prepared.map (·.1) = invocations ∧
      ∀ p ∈ prepared, Versioned.ofRequest scheme.convert request p.1.kind = .ok p.2 := by
  induction invocations generalizing prepared with
  | nil => cases h; simp
  | cons invocation rest ih =>
    rw [prepare_cons] at h
    obtain ⟨objects, ho, h⟩ := bind_eq_ok.1 h
    obtain ⟨others, hr, h⟩ := bind_eq_ok.1 h
    cases h
    obtain ⟨h1, h2⟩ := ih hr
    refine ⟨by simp [h1], fun p hp => ?_⟩
    rcases List.mem_cons.1 hp with rfl | hp
    · exact ho
    · exact h2 p hp

theorem prepare_error {invocations : List Invocation} {e : StatusError}
    (h : prepare scheme request invocations = .error e) :
    ∃ invocation ∈ invocations,
      Versioned.ofRequest scheme.convert request invocation.kind = .error e := by
  induction invocations with
  | nil => cases h
  | cons invocation rest ih =>
    rw [prepare_cons] at h
    rcases bind_eq_error.1 h with ho | ⟨objects, -, h⟩
    · exact ⟨invocation, by simp, ho⟩
    · rcases bind_eq_error.1 h with hr | ⟨others, -, h⟩
      · obtain ⟨i, hi, he⟩ := ih hr
        exact ⟨i, List.mem_cons_of_mem _ hi, he⟩
      · cases h

end Prepare

/-! ## 2. A dispatch is an interleaving -/

/-- The writes a task has still to make after its call. -/
def Task.left : Task → List Effect
  | .waiting _ _ => []
  | .writing _ left => left

namespace Crew

variable {caller : Caller σ} {request : Request}

theorem run_calls (rest : List (Invocation × Versioned)) (pre : List Task) (crew : Crew σ)
    (h : crew.tasks = pre ++ rest.map fun p => .waiting p.1 p.2) :
    run caller request (List.range' pre.length rest.length) crew =
      let (reports, world) := callAll caller request rest crew.world
      some {
        tasks := pre ++ List.zipWith Task.writing reports
          (ValidatingDispatch.tasks request.operation pre.length (rest.map (·.1)) reports)
        calls := crew.calls ++ (List.range' pre.length rest.length).zip reports
        writes := crew.writes
        world := world } := by
  induction rest generalizing pre crew with
  | nil =>
    obtain ⟨ts, calls, writes, world⟩ := crew
    simp_all [callAll, run]
  | cons p rest ih =>
    have hstep : crew.step caller request pre.length =
        some (crew.ask caller request pre.length p.1 p.2) := by
      simp [step, h]
    have htasks : (crew.ask caller request pre.length p.1 p.2).tasks =
        (pre ++ [.writing (caller.call request p.1 p.2 crew.world).1
          (taskEffects request.operation pre.length p.1
            (caller.call request p.1 p.2 crew.world).1)]) ++
          rest.map fun p => .waiting p.1 p.2 := by
      simp [ask, h]
    have hih := ih _ _ htasks
    rw [List.length_append, List.length_singleton] at hih
    rw [List.length_cons, List.range'_succ, run, hstep, Option.bind_some, hih]
    simp [callAll, ask, ValidatingDispatch.tasks, List.append_assoc]

/-- Whether all webhooks have been called. -/
def AllCalled (crew : Crew σ) : Prop :=
  ∀ t ∈ crew.tasks, ∃ report left, t = .writing report left

/-- The writes that are left, task by task. -/
def left (crew : Crew σ) : List (List Effect) := crew.tasks.map Task.left

section Writes

variable {prepared : List (Invocation × Versioned)} {world : σ} {crew : Crew σ}

theorem step_left (hv : crew.Valid caller request prepared world) (hc : crew.AllCalled)
    {task : Nat} {effect : Effect} {rest : List Effect}
    (h : crew.left[task]? = some (effect :: rest)) :
    ∃ after, crew.step caller request task = some after ∧ after.AllCalled ∧
      after.left = crew.left.set task rest ∧ after.calls = crew.calls ∧
      after.world = crew.world ∧
      after.writes.map (·.2) = crew.writes.map (·.2) ++ [effect] := by
  obtain ⟨t, ht, hl⟩ := Option.map_eq_some_iff.1 ((List.getElem?_map ..).symm.trans h)
  obtain ⟨report, left, rfl⟩ := hc t (List.mem_of_getElem? ht)
  obtain rfl : left = effect :: rest := hl
  have hlt : task < crew.tasks.length := (List.getElem?_eq_some_iff.1 ht).1
  obtain ⟨after, ha⟩ := Option.isSome_iff_exists.1
    (hv.step_isSome hlt (by simp [ht]))
  refine ⟨after, ha, ?_⟩
  obtain ⟨_, _, hw, -⟩ | ⟨_, _, _, hw, -, rfl⟩ := step_cases ha
  · rw [ht] at hw; cases hw
  · rw [ht] at hw
    cases hw
    refine ⟨?_, ?_, rfl, rfl, by simp [write]⟩
    · intro t hm
      rcases List.mem_or_eq_of_mem_set hm with hm | rfl
      · exact hc t hm
      · exact ⟨report, rest, rfl⟩
    · simp [Crew.left, write, List.map_set, Task.left]

theorem getElem?_of_flatten_eq_cons {left : List (List Effect)} {effect : Effect}
    {effects : List Effect} (h : left.flatten = effect :: effects) :
    ∃ (task : Nat) (rest : List Effect), left[task]? = some (effect :: rest) ∧
      (left.set task rest).flatten = effects := by
  induction left with
  | nil => cases h
  | cons first others ih =>
    cases first with
    | nil =>
      obtain ⟨task, rest, h1, h2⟩ := ih h
      exact ⟨task + 1, rest, by simpa using h1, by simpa using h2⟩
    | cons e rest =>
      rw [List.flatten_cons, List.cons_append, List.cons.injEq] at h
      exact ⟨0, rest, by simp [h.1], by simpa using h.2⟩

theorem run_flatten (effects : List Effect) (crew : Crew σ)
    (hv : crew.Valid caller request prepared world) (hc : crew.AllCalled)
    (hl : crew.left.flatten = effects) :
    ∃ turns after, run caller request turns crew = some after ∧ after.Joined ∧
      after.calls = crew.calls ∧ after.world = crew.world ∧
      after.writes.map (·.2) = crew.writes.map (·.2) ++ effects := by
  induction effects generalizing crew with
  | nil =>
    refine ⟨[], crew, rfl, fun t ht => ?_, rfl, rfl, by simp⟩
    obtain ⟨report, left, rfl⟩ := hc t ht
    have : left = [] := List.flatten_eq_nil_iff.1 hl left (List.mem_map.2 ⟨_, ht, rfl⟩)
    exact ⟨report, by rw [this]⟩
  | cons effect effects ih =>
    obtain ⟨task, rest, h1, h2⟩ := getElem?_of_flatten_eq_cons hl
    obtain ⟨next, hs, hc', hl', hcalls, hworld, hw⟩ := step_left hv hc h1
    obtain ⟨turns, after, hr, hj, h3, h4, h5⟩ := ih next (hv.step hs) hc' (hl' ▸ h2)
    refine ⟨task :: turns, after, ?_, hj, h3.trans hcalls, h4.trans hworld, ?_⟩
    · rw [run, hs, Option.bind_some, hr]
    · rw [h5, hw, List.append_assoc]; rfl

theorem run_interleave (schedule : Schedule) (crew : Crew σ)
    (hv : crew.Valid caller request prepared world) (hc : crew.AllCalled) :
    ∃ turns after, run caller request turns crew = some after ∧ after.Joined ∧
      after.calls = crew.calls ∧ after.world = crew.world ∧
      after.writes.map (·.2) = crew.writes.map (·.2) ++ interleave schedule crew.left := by
  induction schedule generalizing crew with
  | nil => exact run_flatten _ crew hv hc rfl
  | cons task schedule ih =>
    cases h : crew.left[task]? with
    | none =>
      have ht : turn task crew.left = (none, crew.left) := by simp [turn, h]
      simpa only [interleave, ht] using ih crew hv hc
    | some effects =>
      cases effects with
      | nil =>
        have ht : turn task crew.left = (none, crew.left) := by simp [turn, h]
        simpa only [interleave, ht] using ih crew hv hc
      | cons effect rest =>
        have ht : turn task crew.left = (some effect, crew.left.set task rest) := by
          simp [turn, h]
        obtain ⟨next, hs, hc', hl', hcalls, hworld, hw⟩ := step_left hv hc h
        obtain ⟨turns, after, hr, hj, h3, h4, h5⟩ := ih next (hv.step hs) hc'
        refine ⟨task :: turns, after, ?_, hj, h3.trans hcalls, h4.trans hworld, ?_⟩
        · rw [run, hs, Option.bind_some, hr]
        · rw [h5, hw, hl', List.append_assoc]
          simp only [interleave, ht]
          rfl

end Writes

/-- What a dispatch comes to when all its tasks have ended. -/
def outcome (crew : Crew σ) (request : Request) (tally : Tally) : Dispatched σ where
  verdict := crew.verdict
  request := request
  tally := Effect.applyAll { tally with errors := [] } (crew.writes.map (·.2))
  reports := crew.calls.map (·.2)
  world := crew.world

theorem verdict_eq (crew : Crew σ) (tally : Tally) :
    crew.verdict = match (Effect.applyAll { tally with errors := [] }
        (crew.writes.map (·.2))).errors with
      | e :: _ => .error e
      | [] => .ok () := by
  have hm : Effect.messages (crew.writes.map (·.2)) = crew.channel.map (·.2) := by
    unfold channel Effect.messages
    rw [List.filterMap_map, List.map_filterMap]
    congr 1
    funext w
    cases h : w.2.message? <;> simp [h]
  rw [Effect.errors_applyAll, List.nil_append, hm, verdict]
  cases crew.channel <;> rfl

end Crew

theorem length_tasks (operation : Operation) (index : Nat) (invocations : List Invocation)
    (reports : List CallReport) (h : reports.length = invocations.length) :
    (tasks operation index invocations reports).length = reports.length := by
  induction invocations generalizing index reports with
  | nil => simp_all [tasks]
  | cons invocation rest ih =>
    cases reports with
    | nil => cases h
    | cons report reports => simpa [tasks] using ih (index + 1) reports (by simpa using h)

/-- After the calls, each in its turn, the tasks are left with their writes. -/
theorem Crew.run_spawn {caller : Caller σ} {request : Request}
    {prepared : List (Invocation × Versioned)} {world after : σ} {reports : List CallReport}
    (h : callAll caller request prepared world = (reports, after)) :
    ∃ turns crew, run caller request turns (spawn prepared world) = some crew ∧ crew.AllCalled ∧
      crew.left = ValidatingDispatch.tasks request.operation 0 (prepared.map (·.1)) reports ∧
      crew.writes = [] ∧ crew.calls.map (·.2) = reports ∧ crew.world = after := by
  have hlen : reports.length = prepared.length := by
    simpa [h] using length_callAll caller request prepared world
  have htasks := length_tasks request.operation 0 (prepared.map (·.1)) reports (by simpa using hlen)
  have hrun := @run_calls σ caller request prepared [] (spawn prepared world) rfl
  rw [show (spawn prepared world).world = world from rfl, h] at hrun
  refine ⟨_, _, hrun, ?_, ?_, rfl, ?_, rfl⟩
  · intro t ht
    obtain ⟨i, hi, rfl⟩ := List.mem_iff_getElem.1 ht
    have hlt : i < reports.length := by simp at hi; omega
    exact ⟨reports[i], _, List.getElem_zipWith⟩
  · refine List.ext_getElem (by simp [left, htasks]) fun i h1 h2 => ?_
    simp [left, Task.left]
  · exact List.map_snd_zip (by simp [hlen])

/-- **A dispatch is one of the interleavings of its tasks**, and comes to what that one comes to. -/
theorem dispatch_eq_outcome (caller : Caller σ) (scheme : Scheme) (scheduler : Scheduler)
    (request : Request) (tally : Tally) {invocations : List Invocation} (world : σ)
    {prepared : List (Invocation × Versioned)}
    (h : prepare scheme request invocations = .ok prepared) :
    ∃ turns crew, Crew.run caller request turns (Crew.spawn prepared world) = some crew ∧
      crew.Joined ∧ dispatch caller scheme scheduler request tally invocations world =
        crew.outcome request tally := by
  generalize hcall : callAll caller request prepared world = called
  obtain ⟨reports, after⟩ := called
  obtain ⟨calls, asked, hrun, hall, hleft, hwrites, hreports, hworld⟩ := Crew.run_spawn hcall
  rw [(prepare_ok h).1] at hleft
  have hv := (Crew.valid_spawn caller request prepared world).run hrun
  obtain ⟨turns, crew, hr, hj, h3, h4, h5⟩ := Crew.run_interleave
    (scheduler (reports.zip (tasks request.operation 0 invocations reports))) asked hv hall
  refine ⟨calls ++ turns, crew, by rw [Crew.run_append, hrun, Option.bind_some, hr], hj, ?_⟩
  rw [hwrites, hleft, List.map_nil, List.nil_append] at h5
  unfold dispatch Crew.outcome
  rw [mapM_eq_prepare, h]
  dsimp only
  rw [hcall]
  dsimp only
  rewrite [Crew.verdict_eq crew tally, h5, h3, hreports, h4, hworld]
  rfl

/-- Whether an interleaving of the tasks has come to its end. -/
def Crew.Finished (caller : Caller σ) (scheme : Scheme) (request : Request)
    (invocations : List Invocation) (world : σ) (crew : Crew σ) : Prop :=
  ∃ prepared turns, prepare scheme request invocations = .ok prepared ∧
    Crew.run caller request turns (Crew.spawn prepared world) = some crew ∧ crew.Joined

theorem Crew.Finished.exists_valid {caller : Caller σ} {scheme : Scheme} {request : Request}
    {invocations : List Invocation} {world : σ} {crew : Crew σ}
    (h : crew.Finished caller scheme request invocations world) :
    ∃ prepared, prepare scheme request invocations = .ok prepared ∧
      crew.Valid caller request prepared world ∧ crew.Joined := by
  obtain ⟨prepared, turns, hprepare, hrun, hjoined⟩ := h
  exact ⟨prepared, hprepare, (Crew.valid_spawn caller request prepared world).run hrun, hjoined⟩

/-- **What a dispatch may come to**: what some interleaving of its tasks comes to, or nothing at all if
the objects do not convert to the kind of some webhook. -/
inductive ComesTo (caller : Caller σ) (scheme : Scheme) (request : Request) (tally : Tally)
    (invocations : List Invocation) (world : σ) : Dispatched σ → Prop where
  | unprepared {e} (failed : prepare scheme request invocations = .error e) :
      ComesTo caller scheme request tally invocations world ⟨.error e, request, tally, [], world⟩
  | joined {crew} (finished : Crew.Finished caller scheme request invocations world crew) :
      ComesTo caller scheme request tally invocations world (crew.outcome request tally)

/-- Every dispatch comes to what one of its interleavings comes to. -/
theorem comesTo_dispatch (caller : Caller σ) (scheme : Scheme) (scheduler : Scheduler)
    (request : Request) (tally : Tally) (invocations : List Invocation) (world : σ) :
    ComesTo caller scheme request tally invocations world
      (dispatch caller scheme scheduler request tally invocations world) := by
  cases h : prepare scheme request invocations with
  | error e =>
    have heq : dispatch caller scheme scheduler request tally invocations world =
        ⟨.error e, request, tally, [], world⟩ := by
      unfold dispatch
      rw [mapM_eq_prepare, h]
    exact heq ▸ .unprepared h
  | ok prepared =>
    obtain ⟨turns, crew, hrun, hjoined, heq⟩ :=
      dispatch_eq_outcome caller scheme scheduler request tally world h
    exact heq ▸ .joined ⟨prepared, turns, h, hrun, hjoined⟩

/-! ## 3. Every interleaving -/

/-- **What holds of the tasks between any two turns.** -/
structure Crew.Unhindered (caller : Caller σ) (request : Request)
    (prepared : List (Invocation × Versioned)) (world : σ) (crew : Crew σ) : Prop where
  /-- No webhook is called twice. -/
  called_once : (crew.calls.map (·.1)).Nodup
  /-- The calls are those of the webhooks, one after another in some order. -/
  sequence : callAll caller request (crew.calls.filterMap fun c => prepared[c.1]?) world =
    (crew.calls.map (·.2), crew.world)
  /-- No task puts two messages into the channel. -/
  one_message : (crew.channel.map (·.1)).Nodup
  /-- A task with a message to send finds room for it in a channel for as many as there are tasks. -/
  room : ∀ (task : Nat) report e left,
    crew.tasks[task]? = some (.writing report (.fail e :: left)) →
      crew.channel.length < prepared.length
  /-- A task that has not ended can take its turn. -/
  moves : ∀ task < prepared.length, (∀ report, crew.tasks[task]? ≠ some (.writing report [])) →
    (crew.step caller request task).isSome
  /-- When no task can take a turn, all have ended. -/
  joins : (∀ task, crew.step caller request task = none) → crew.Joined

/-- **What holds when all tasks have ended.** -/
structure Crew.Decided (invocations : List Invocation) (crew : Crew σ) : Prop where
  /-- Every webhook has been called, once. -/
  called : (crew.calls.map (·.1)).Perm (List.range invocations.length)
  /-- The request goes on if and only if no outcome ends it. -/
  ok_iff : crew.verdict = .ok () ↔ ∀ task report invocation, (task, report) ∈ crew.calls →
    invocations[task]? = some invocation → report.abort? invocation.webhook = none
  /-- The messages that came are the errors of the outcomes that end the request. -/
  messages : ∀ task e, (task, e) ∈ crew.channel ↔ ∃ report invocation, (task, report) ∈ crew.calls ∧
    invocations[task]? = some invocation ∧ report.abort? invocation.webhook = some e
  /-- The error is that of the message that came first. -/
  first : ∀ e, crew.verdict = .error e ↔ ∃ task, crew.channel.head? = some (task, e)
  /-- A denial is never lost. -/
  denied : ∀ task report response, (task, report) ∈ crew.calls → report.outcome = .ok response →
    response.allowed = false → ∃ e, crew.verdict = .error e

section Interleavings

variable {caller : Caller σ} {request : Request} {invocations : List Invocation}
  {prepared : List (Invocation × Versioned)} {world : σ} {crew : Crew σ}

theorem Crew.Valid.unhindered (hv : crew.Valid caller request prepared world) :
    crew.Unhindered caller request prepared world where
  called_once := hv.nodup
  sequence := hv.sequence
  one_message := hv.channel_nodup
  room _ _ _ _ ht := hv.length ▸ hv.room ht
  moves _ hlt hleft := hv.step_isSome (hv.length.symm ▸ hlt) hleft
  joins := hv.joined_of_stuck

theorem Crew.verdict_ok_iff (crew : Crew σ) : crew.verdict = .ok () ↔ crew.channel = [] := by
  unfold verdict
  cases crew.channel <;> simp

theorem Crew.Valid.decided (hv : crew.Valid caller request prepared world) (hj : crew.Joined)
    (hmap : prepared.map (·.1) = invocations) : crew.Decided invocations := by
  have hmsg : ∀ task e, (task, e) ∈ crew.channel ↔ ∃ report invocation,
      (task, report) ∈ crew.calls ∧ invocations[task]? = some invocation ∧
        report.abort? invocation.webhook = some e := by
    intro task e
    rw [hv.mem_channel_iff hj, ← hmap]
    simp only [List.getElem?_map, Option.map_eq_some_iff]
    constructor
    · rintro ⟨report, p, hc, hp, ha⟩
      exact ⟨report, p.1, hc, ⟨p, hp, rfl⟩, ha⟩
    · rintro ⟨report, _, hc, ⟨p, hp, rfl⟩, ha⟩
      exact ⟨report, p, hc, hp, ha⟩
  have hok : crew.verdict = .ok () ↔ ∀ task report invocation, (task, report) ∈ crew.calls →
      invocations[task]? = some invocation → report.abort? invocation.webhook = none := by
    rw [Crew.verdict_ok_iff, List.eq_nil_iff_forall_not_mem]
    constructor
    · intro h task report invocation hc hi
      refine Option.eq_none_iff_forall_ne_some.2 fun e he => ?_
      exact h (task, e) ((hmsg task e).2 ⟨report, invocation, hc, hi, he⟩)
    · rintro h ⟨task, e⟩ hm
      obtain ⟨report, invocation, hc, hi, ha⟩ := (hmsg task e).1 hm
      rw [h task report invocation hc hi] at ha
      cases ha
  refine ⟨?_, hok, hmsg, ?_, ?_⟩
  · rw [← hmap, List.length_map]
    exact hv.calls_perm hj
  · intro e
    unfold Crew.verdict
    rcases crew.channel with _ | ⟨⟨task, e'⟩, rest⟩ <;> simp
  · intro task report response hc ho hd
    obtain ⟨left, ht⟩ := (hv.called task report).1 hc
    obtain ⟨p, hp, -⟩ := hv.writing task report left ht
    cases hverdict : crew.verdict with
    | error e => exact ⟨e, rfl⟩
    | ok u =>
      have := hok.1 hverdict task report p.1 hc (by rw [← hmap, List.getElem?_map, hp]; rfl)
      rw [report.abort?_of_denied _ ho hd] at this
      cases this

theorem Crew.Finished.decided {scheme : Scheme}
    (h : crew.Finished caller scheme request invocations world) : crew.Decided invocations := by
  obtain ⟨prepared, hprepare, hv, hjoined⟩ := h.exists_valid
  exact hv.decided hjoined (prepare_ok hprepare).1

theorem Crew.Finished.exists_call {scheme : Scheme}
    (h : crew.Finished caller scheme request invocations world) {i : Nat} {report : CallReport}
    (hm : (i, report) ∈ crew.calls) : ∃ invocation objects before,
      invocations[i]? = some invocation ∧
        report = (caller.call request invocation objects before).1 := by
  obtain ⟨prepared, hprepare, hv, -⟩ := h.exists_valid
  obtain ⟨p, hp, before, hreport⟩ := hv.exists_call hm
  refine ⟨p.1, p.2, before, ?_, hreport⟩
  rw [← (prepare_ok hprepare).1, List.getElem?_map, hp]
  rfl

theorem Crew.Finished.called {scheme : Scheme}
    (h : crew.Finished caller scheme request invocations world) {i : Nat} {invocation : Invocation}
    (hi : invocations[i]? = some invocation) : ∃ report, (i, report) ∈ crew.calls := by
  have hm := h.decided.called.mem_iff.2 (List.mem_range.2 (List.getElem?_eq_some_iff.1 hi).1)
  obtain ⟨⟨_, report⟩, hcall, rfl⟩ := List.mem_map.1 hm
  exact ⟨report, hcall⟩

end Interleavings

/-- **Every interleaving calls all webhooks, and the first error to arrive decides.**  If the objects
do not convert to some webhook's kind, the dispatch is an internal error and calls nobody.  Otherwise,
in every interleaving of the tasks, no task ever waits, the turns come to an end, every webhook has
then been called once, and the request goes on if and only if no outcome ends it; otherwise the error
is that of the task whose message came first.  Every dispatch is such an interleaving. -/
theorem every_interleaving_calls_all_first_error_decides (caller : Caller σ) (scheme : Scheme)
    (request : Request) (tally : Tally) (invocations : List Invocation) (world : σ) :
    ((∃ invocation ∈ invocations, ∃ cause,
        Versioned.ofRequest scheme.convert request invocation.kind = .error cause) →
      ∃ e, e.code = 500 ∧ ∀ scheduler,
        dispatch caller scheme scheduler request tally invocations world =
          ⟨.error e, request, tally, [], world⟩) ∧
    ((∀ invocation ∈ invocations, ∃ objects,
        Versioned.ofRequest scheme.convert request invocation.kind = .ok objects) →
      ∃ prepared, prepared.map (·.1) = invocations ∧
        (∀ p ∈ prepared, Versioned.ofRequest scheme.convert request p.1.kind = .ok p.2) ∧
        (∀ turns crew, Crew.run caller request turns (Crew.spawn prepared world) = some crew →
          crew.Unhindered caller request prepared world ∧
          (crew.Joined → crew.Decided invocations)) ∧
        (∀ crews : Nat → Crew σ,
          ∃ n, ∀ task, (crews n).step caller request task ≠ some (crews (n + 1))) ∧
        ∀ scheduler, ∃ turns crew,
          Crew.run caller request turns (Crew.spawn prepared world) = some crew ∧ crew.Joined ∧
          dispatch caller scheme scheduler request tally invocations world =
            crew.outcome request tally) := by
  constructor
  · rintro ⟨invocation, hi, cause, hcause⟩
    cases hp : prepare scheme request invocations with
    | ok prepared =>
      obtain ⟨hmap, hconv⟩ := prepare_ok hp
      rw [← hmap] at hi
      obtain ⟨p, hm, rfl⟩ := List.mem_map.1 hi
      rw [hconv p hm] at hcause
      cases hcause
    | error e =>
      obtain ⟨i, -, he⟩ := prepare_error hp
      refine ⟨e, Versioned.code_of_convertTo_error he, fun scheduler => ?_⟩
      unfold dispatch
      rw [mapM_eq_prepare, hp]
  · intro hall
    cases hp : prepare scheme request invocations with
    | error e =>
      obtain ⟨i, hi, he⟩ := prepare_error hp
      obtain ⟨objects, ho⟩ := hall i hi
      rw [ho] at he
      cases he
    | ok prepared =>
      obtain ⟨hmap, hconv⟩ := prepare_ok hp
      refine ⟨prepared, hmap, hconv, ?_, Crew.not_forever caller request, ?_⟩
      · intro turns crew hr
        have hv := (Crew.valid_spawn caller request prepared world).run hr
        exact ⟨hv.unhindered, fun hj => hv.decided hj hmap⟩
      · exact fun scheduler => dispatch_eq_outcome caller scheme scheduler request tally world hp

end ValidatingDispatch

end Admission
