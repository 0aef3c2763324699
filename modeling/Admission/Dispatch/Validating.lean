import Admission.Dispatch.Mutating

/-!
# Validating webhooks

All objects are converted first, so that a failing conversion calls nobody.  Then all webhooks are
called, one task each, and all of them to the end.  The tasks run at the same time: each has a list
of writes of its own, and a `Schedule` says in which order the tasks take their turns.  The first
error to arrive decides.
-/

namespace Admission

namespace ValidatingDispatch

variable {σ : Type}

/-- The writes of one task: what the call leaves behind, then what its outcome means. -/
def taskEffects (operation : Operation) (index : Nat) (invocation : Invocation)
    (report : CallReport) : List Effect :=
  let hook := invocation.webhook
  let failure? := match report.outcome with
    | .ok response =>
      if response.allowed then none
      else some (HookFailure.rejected (.webhookDenied hook.name response.result))
    | .error failure => some failure
  report.effects hook operation ++
    match failure? with
    | none => []
    | some failure =>
      match Policy.evaluate hook index operation failure with
      | (.ignore, effects) => effects
      | (.abort e, effects) => effects ++ [.fail e]

/-- The writes of all tasks, in the order of the webhooks. -/
def tasks (operation : Operation) : Nat → List Invocation → List CallReport → List (List Effect)
  | index, invocation :: invocations, report :: reports =>
    taskEffects operation index invocation report ::
      tasks operation (index + 1) invocations reports
  | _, _, _ => []

/-- Calls the webhooks, each with its objects. -/
def callAll (caller : Caller σ) (request : Request) :
    List (Invocation × Versioned) → σ → List CallReport × σ
  | [], world => ([], world)
  | (invocation, objects) :: rest, world =>
    let (report, world) := caller.call request invocation objects world
    let (reports, world) := callAll caller request rest world
    (report :: reports, world)

/-- Which task takes the next turn, turn by turn. -/
abbrev Schedule := List Nat

/-- One turn: the next write of a task, if it has one left. -/
def turn (task : Nat) (left : List (List Effect)) : Option Effect × List (List Effect) :=
  match left[task]? with
  | some (effect :: rest) => (some effect, left.set task rest)
  | _ => (none, left)

/-- The writes in the order of a schedule; what it leaves over comes after, task by task. -/
def interleave : Schedule → List (List Effect) → List Effect
  | [], left => left.flatten
  | task :: schedule, left =>
    match turn task left with
    | (some effect, left) => effect :: interleave schedule left
    | (none, left) => interleave schedule left

/-- How the tasks of some calls are scheduled. -/
abbrev Scheduler := List (CallReport × List Effect) → Schedule

/-- Calls that need no answer end at once, in the order of the webhooks, and the answers come in after
them in that order; a task makes its writes in one go. -/
def promptFirst : Scheduler := fun tasks =>
  let numbered := tasks.zipIdx
  let answered (report : CallReport) : Bool := match report.outcome with
    | .ok _ => true
    | .error (.calling _ (.response _)) => true
    | .error (.calling _ (.exchange (.connect _ _))) => false
    | .error (.calling _ (.exchange _)) => true
    | .error _ => false
  let turns (wanted : Bool) : Schedule := numbered.flatMap fun ((report, effects), index) =>
    if answered report = wanted then List.replicate effects.length index else []
  turns false ++ turns true

/-- Calls validating webhooks for a request. -/
def dispatch (caller : Caller σ) (scheme : Scheme) (scheduler : Scheduler) (request : Request)
    (tally : Tally) (invocations : List Invocation) (world : σ) : Dispatched σ :=
  match invocations.mapM fun invocation =>
      return (invocation, ← Versioned.ofRequest scheme.convert request invocation.kind) with
  | .error e => ⟨.error e, request, tally, [], world⟩
  | .ok prepared =>
    let (reports, world) := callAll caller request prepared world
    let tasks := tasks request.operation 0 invocations reports
    let writes := interleave (scheduler (reports.zip tasks)) tasks
    let after := Effect.applyAll { tally with errors := [] } writes
    let verdict := match after.errors with
      | e :: _ => .error e
      | [] => .ok ()
    ⟨verdict, request, after, reports, world⟩

end ValidatingDispatch

end Admission
