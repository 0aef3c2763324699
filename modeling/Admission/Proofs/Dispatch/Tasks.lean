import Admission.Proofs.Dispatch.Call
import Mathlib.Order.WellFounded

/-!
# The tasks of a validating dispatch

Every webhook has a task of its own.  A task calls its webhook and then makes its writes, one at a
time, and between any two of its turns any other tasks may take theirs.  An error that ends the
request is a message into a channel that takes one message for each task and is read only when all
tasks have ended; a task whose message finds no room has to wait.

* `Crew.step` is one turn of one task, `Crew.run` the turns of an interleaving;
* `Crew.Valid` is what holds between any two turns (`Crew.Valid.run`);
* `Crew.Valid.step_isSome`: no task ever waits;
* `Crew.not_forever`: the turns come to an end.
-/

namespace Admission

namespace ValidatingDispatch

/-! ## 1. Turns -/

/-- How far a task is. -/
inductive Task where
  /-- Its webhook is still to be called. -/
  | waiting (invocation : Invocation) (objects : Versioned)
  /-- Its webhook has been called; what is left are these writes. -/
  | writing (report : CallReport) (left : List Effect)

namespace Task

/-- What a task has still to do: webhooks to call, and writes to make. -/
def todo : Task → Nat × Nat
  | .waiting _ _ => (1, 0)
  | .writing _ left => (0, left.length)

@[simp] theorem todo_waiting (invocation : Invocation) (objects : Versioned) :
    (waiting invocation objects).todo = (1, 0) := rfl

@[simp] theorem todo_writing (report : CallReport) (left : List Effect) :
    (writing report left).todo = (0, left.length) := rfl

end Task

/-- The tasks of a dispatch, everything they have done so far, and the other side. -/
structure Crew (σ : Type) where
  tasks : List Task
  /-- The calls, each with the number of its task, in the order they were made. -/
  calls : List (Nat × CallReport) := []
  /-- The writes, each with the number of its task, in the order they were made. -/
  writes : List (Nat × Effect) := []
  world : σ

namespace Crew

variable {σ : Type}

/-- One task for each webhook, none of which has been called. -/
def spawn (prepared : List (Invocation × Versioned)) (world : σ) : Crew σ where
  tasks := prepared.map fun p => .waiting p.1 p.2
  world := world

/-- The messages in the channel, each with the number of its task, in the order they came. -/
def channel (crew : Crew σ) : List (Nat × StatusError) :=
  crew.writes.filterMap fun w => w.2.message?.map (w.1, ·)

/-- Whether there is room for a write: the channel takes as many messages as there are tasks. -/
def hasRoom (crew : Crew σ) : Effect → Bool
  | .fail _ => crew.channel.length < crew.tasks.length
  | _ => true

/-- After a task has called its webhook. -/
def ask (caller : Caller σ) (request : Request) (crew : Crew σ) (task : Nat)
    (invocation : Invocation) (objects : Versioned) : Crew σ :=
  let (report, world) := caller.call request invocation objects crew.world
  { tasks := crew.tasks.set task
      (.writing report (taskEffects request.operation task invocation report))
    calls := crew.calls ++ [(task, report)]
    writes := crew.writes
    world := world }

/-- After a task has made a write. -/
def write (crew : Crew σ) (task : Nat) (report : CallReport) (effect : Effect)
    (left : List Effect) : Crew σ :=
  { crew with
    tasks := crew.tasks.set task (.writing report left)
    writes := crew.writes ++ [(task, effect)] }

/-- One turn of a task; none if it has ended or has to wait. -/
def step (caller : Caller σ) (request : Request) (crew : Crew σ) (task : Nat) :
    Option (Crew σ) :=
  match crew.tasks[task]? with
  | some (.waiting invocation objects) => some (crew.ask caller request task invocation objects)
  | some (.writing report (effect :: left)) =>
    if crew.hasRoom effect then some (crew.write task report effect left) else none
  | some (.writing _ []) => none
  | none => none

/-- The turns of an interleaving, if each of them can be taken. -/
def run (caller : Caller σ) (request : Request) : List Nat → Crew σ → Option (Crew σ)
  | [], crew => some crew
  | task :: turns, crew => (crew.step caller request task).bind (run caller request turns)

/-- Whether all tasks have ended, so that the dispatch goes on. -/
def Joined (crew : Crew σ) : Prop := ∀ task ∈ crew.tasks, ∃ report, task = .writing report []

/-- What the dispatch reads from the channel: the first message. -/
def verdict (crew : Crew σ) : Except StatusError Unit :=
  match crew.channel with
  | (_, e) :: _ => .error e
  | [] => .ok ()

/-- The writes of one task, in the order they were made. -/
def writesOf (crew : Crew σ) (task : Nat) : List Effect :=
  (crew.writes.filter (·.1 = task)).map (·.2)

/-! ### what a turn is -/

section Turns

variable {caller : Caller σ} {request : Request} {crew after : Crew σ} {task : Nat}

/-- **A turn is a call or a write** for which there is room. -/
theorem step_cases (h : crew.step caller request task = some after) :
    (∃ invocation objects, crew.tasks[task]? = some (.waiting invocation objects) ∧
      after = crew.ask caller request task invocation objects) ∨
    (∃ report effect left, crew.tasks[task]? = some (.writing report (effect :: left)) ∧
      crew.hasRoom effect = true ∧ after = crew.write task report effect left) := by
  unfold step at h
  split at h
  · next invocation objects ht => exact .inl ⟨invocation, objects, ht, (Option.some.inj h).symm⟩
  · next report effect left ht =>
    split at h
    · next hr => exact .inr ⟨report, effect, left, ht, hr, (Option.some.inj h).symm⟩
    · cases h
  · cases h
  · cases h

theorem run_append (turns more : List Nat) (crew : Crew σ) :
    run caller request (turns ++ more) crew =
      (run caller request turns crew).bind (run caller request more) := by
  induction turns generalizing crew with
  | nil => rfl
  | cons task turns ih =>
    simp only [List.cons_append, run, Option.bind_assoc]
    congr 1
    funext crew
    exact ih crew

end Turns

theorem tasks_ask {caller : Caller σ} {request : Request} {crew : Crew σ} {task : Nat}
    {invocation : Invocation} {objects : Versioned}
    (h : crew.tasks[task]? = some (.waiting invocation objects)) (i : Nat) :
    (crew.ask caller request task invocation objects).tasks[i]? =
      if task = i then
        let report := (caller.call request invocation objects crew.world).1
        some (.writing report (taskEffects request.operation task invocation report))
      else crew.tasks[i]? := by
  simp only [ask, List.getElem?_set, if_pos (List.getElem?_eq_some_iff.1 h).1]

theorem tasks_write {crew : Crew σ} {task : Nat} {report : CallReport} {effect : Effect}
    {left : List Effect} (h : crew.tasks[task]? = some (.writing report (effect :: left)))
    (i : Nat) :
    (crew.write task report effect left).tasks[i]? =
      if task = i then some (.writing report left) else crew.tasks[i]? := by
  simp only [write, List.getElem?_set, if_pos (List.getElem?_eq_some_iff.1 h).1]

theorem writesOf_write (crew : Crew σ) (task : Nat) (report : CallReport) (effect : Effect)
    (left : List Effect) (i : Nat) :
    (crew.write task report effect left).writesOf i =
      crew.writesOf i ++ if task = i then [effect] else [] := by
  unfold writesOf write
  rw [List.filter_append, List.map_append]
  by_cases h : task = i <;> simp [h]

theorem channel_filter (crew : Crew σ) (i : Nat) :
    (crew.channel.filter (·.1 = i)).map (·.2) = Effect.messages (crew.writesOf i) := by
  unfold channel writesOf Effect.messages
  induction crew.writes with
  | nil => rfl
  | cons w rest ih =>
    obtain ⟨task, effect⟩ := w
    by_cases h : task = i <;> cases hm : effect.message? <;> simp_all

/-! ## 2. What holds between any two turns -/

/-- **The state of the tasks between two turns.**  The calls have been made one after another, each
by its own task and with its own objects; a task that has called has made the first of the writes its
call asks for, and the others are left. -/
structure Valid (caller : Caller σ) (request : Request) (prepared : List (Invocation × Versioned))
    (world : σ) (crew : Crew σ) : Prop where
  length : crew.tasks.length = prepared.length
  sequence : callAll caller request (crew.calls.filterMap fun c => prepared[c.1]?) world =
    (crew.calls.map (·.2), crew.world)
  nodup : (crew.calls.map (·.1)).Nodup
  called : ∀ task report, (task, report) ∈ crew.calls ↔
    ∃ left, crew.tasks[task]? = some (.writing report left)
  waiting : ∀ task invocation objects, crew.tasks[task]? = some (.waiting invocation objects) →
    prepared[task]? = some (invocation, objects) ∧ crew.writesOf task = []
  writing : ∀ task report left, crew.tasks[task]? = some (.writing report left) →
    ∃ p, prepared[task]? = some p ∧
      crew.writesOf task ++ left = taskEffects request.operation task p.1 report
  stray : ∀ task, crew.tasks[task]? = none → crew.writesOf task = []

theorem valid_spawn (caller : Caller σ) (request : Request)
    (prepared : List (Invocation × Versioned)) (world : σ) :
    (spawn prepared world).Valid caller request prepared world where
  length := by simp [spawn]
  sequence := rfl
  nodup := List.nodup_nil
  called task report := by simp [spawn]
  waiting task invocation objects h := by
    obtain ⟨p, hp, he⟩ := Option.map_eq_some_iff.1 ((List.getElem?_map ..).symm.trans h)
    cases he
    exact ⟨hp, rfl⟩
  writing task report left h := by
    obtain ⟨p, -, he⟩ := Option.map_eq_some_iff.1 ((List.getElem?_map ..).symm.trans h)
    cases he
  stray _ _ := rfl

namespace Valid

variable {caller : Caller σ} {request : Request} {prepared : List (Invocation × Versioned)}
  {world : σ} {crew after : Crew σ} {task : Nat}

theorem ask (hv : crew.Valid caller request prepared world) {invocation : Invocation}
    {objects : Versioned} (ht : crew.tasks[task]? = some (.waiting invocation objects)) :
    (crew.ask caller request task invocation objects).Valid caller request prepared world := by
  obtain ⟨hp, hw⟩ := hv.waiting task invocation objects ht
  have hfresh : ∀ report, (task, report) ∉ crew.calls := by
    intro report hm
    obtain ⟨left, hl⟩ := (hv.called task report).1 hm
    rw [ht] at hl
    cases hl
  constructor
  case length => simpa [Crew.ask] using hv.length
  case sequence =>
    simp only [Crew.ask, List.filterMap_append, List.filterMap_cons, List.filterMap_nil, hp,
      callAll_append, hv.sequence, List.map_append]
    rfl
  case nodup =>
    simp only [Crew.ask, List.map_append, List.map_cons, List.map_nil]
    refine List.nodup_append.2 ⟨hv.nodup, by simp, ?_⟩
    rintro i hi j hj rfl
    obtain ⟨⟨_, report⟩, hm, rfl⟩ := List.mem_map.1 hi
    rw [List.mem_singleton] at hj
    exact hfresh report (hj ▸ hm)
  case called =>
    intro i report
    rw [tasks_ask ht]
    simp only [Crew.ask, List.mem_append, List.mem_singleton, Prod.mk.injEq]
    by_cases h : task = i
    · subst h
      rw [if_pos rfl]
      simp [hfresh, eq_comm]
    · simp [h, Ne.symm h, hv.called]
  case waiting =>
    intro i invocation objects h
    rw [tasks_ask ht] at h
    split at h
    · cases h
    · exact hv.waiting i invocation objects h
  case writing =>
    intro i report left h
    rw [tasks_ask ht] at h
    split at h
    · next hi =>
      subst hi
      cases h
      exact ⟨_, hp, by simp only [writesOf, Crew.ask] at hw ⊢; rw [hw]; rfl⟩
    · exact hv.writing i report left h
  case stray =>
    intro i h
    refine hv.stray i ?_
    simpa [Crew.ask] using h

theorem write (hv : crew.Valid caller request prepared world) {report : CallReport}
    {effect : Effect} {left : List Effect}
    (ht : crew.tasks[task]? = some (.writing report (effect :: left))) :
    (crew.write task report effect left).Valid caller request prepared world := by
  constructor
  case length => simpa [Crew.write] using hv.length
  case sequence => exact hv.sequence
  case nodup => exact hv.nodup
  case called =>
    intro i report'
    rw [tasks_write ht]
    refine (hv.called i report').trans ?_
    by_cases h : task = i
    · subst h
      rw [if_pos rfl, ht]
      simp
    · rw [if_neg h]
  case waiting =>
    intro i invocation objects h
    rw [tasks_write ht] at h
    rw [writesOf_write]
    split at h
    · cases h
    · next hi => simpa [hi] using hv.waiting i invocation objects h
  case writing =>
    intro i report' left' h
    rw [tasks_write ht] at h
    rw [writesOf_write]
    split at h
    · next hi =>
      subst hi
      cases h
      obtain ⟨p, hp, hw⟩ := hv.writing task report (effect :: left) ht
      exact ⟨p, hp, by simpa using hw⟩
    · next hi => simpa [hi] using hv.writing i report' left' h
  case stray =>
    intro i h
    rw [tasks_write ht] at h
    rw [writesOf_write]
    split at h
    · cases h
    · next hi => simpa [hi] using hv.stray i h

theorem step (hv : crew.Valid caller request prepared world)
    (h : crew.step caller request task = some after) :
    after.Valid caller request prepared world := by
  obtain ⟨invocation, objects, ht, rfl⟩ | ⟨report, effect, left, ht, -, rfl⟩ := step_cases h
  · exact hv.ask ht
  · exact hv.write ht

theorem run (hv : crew.Valid caller request prepared world) {turns : List Nat}
    (h : Crew.run caller request turns crew = some after) :
    after.Valid caller request prepared world := by
  induction turns generalizing crew with
  | nil => cases h; exact hv
  | cons task turns ih =>
    obtain ⟨next, hn, h⟩ := Option.bind_eq_some_iff.1 h
    exact ih (hv.step hn) h

/-! ## 3. No task waits -/

/-- What a task has said and what it is still to say is the error its outcome ends the request
with. -/
theorem messages (hv : crew.Valid caller request prepared world) {report : CallReport}
    {left : List Effect} (ht : crew.tasks[task]? = some (.writing report left)) :
    ∃ p, prepared[task]? = some p ∧
      Effect.messages (crew.writesOf task) ++ Effect.messages left =
        (report.abort? p.1.webhook).toList := by
  obtain ⟨p, hp, hw⟩ := hv.writing task report left ht
  refine ⟨p, hp, ?_⟩
  rw [← Effect.messages_append, hw, messages_taskEffects]

theorem messages_length (hv : crew.Valid caller request prepared world) (task : Nat) :
    (Effect.messages (crew.writesOf task)).length ≤ 1 := by
  cases ht : crew.tasks[task]? with
  | none => simp [hv.stray task ht]
  | some t =>
    cases t with
    | waiting invocation objects => simp [(hv.waiting task invocation objects ht).2]
    | writing report left =>
      obtain ⟨p, -, hm⟩ := hv.messages ht
      have hl := congrArg List.length hm
      rw [List.length_append] at hl
      have := Option.length_toList_le (o := report.abort? p.1.webhook)
      omega

/-- **No two messages in the channel are from the same task.** -/
theorem channel_nodup (hv : crew.Valid caller request prepared world) :
    (crew.channel.map (·.1)).Nodup := by
  refine List.nodup_iff_count.2 fun i => ?_
  have h := hv.messages_length i
  rw [← channel_filter, List.length_map] at h
  rwa [List.count_eq_countP, List.countP_map, List.countP_eq_length_filter]

theorem sender_lt (hv : crew.Valid caller request prepared world) {i : Nat}
    (h : i ∈ crew.channel.map (·.1)) : i < crew.tasks.length := by
  by_contra hge
  obtain ⟨c, hc, rfl⟩ := List.mem_map.1 h
  have hm : c.2 ∈ (crew.channel.filter (·.1 = c.1)).map (·.2) :=
    List.mem_map.2 ⟨c, List.mem_filter.2 ⟨hc, by simp⟩, rfl⟩
  rw [channel_filter, hv.stray c.1 (List.getElem?_eq_none (Nat.not_lt.1 hge))] at hm
  cases hm

/-- **A task that has a message to send finds room for it**: none of the messages in the channel is
its own, so there are fewer of them than tasks. -/
theorem room (hv : crew.Valid caller request prepared world) {report : CallReport}
    {e : StatusError} {left : List Effect}
    (ht : crew.tasks[task]? = some (.writing report (.fail e :: left))) :
    crew.channel.length < crew.tasks.length := by
  have hlt : task < crew.tasks.length := (List.getElem?_eq_some_iff.1 ht).1
  have hsilent : task ∉ crew.channel.map (·.1) := by
    intro hm
    obtain ⟨p, -, hmsg⟩ := hv.messages ht
    have hl := congrArg List.length hmsg
    have hpos : 0 < (crew.channel.filter (·.1 = task)).length := by
      obtain ⟨c, hc, rfl⟩ := List.mem_map.1 hm
      exact List.length_pos_of_mem (List.mem_filter.2 ⟨hc, by simp⟩)
    have hsaid : 0 < (Effect.messages (crew.writesOf task)).length := by
      rwa [← channel_filter, List.length_map]
    have hcons : (Effect.messages (.fail e :: left)).length = (Effect.messages left).length + 1 := rfl
    have := Option.length_toList_le (o := report.abort? p.1.webhook)
    rw [List.length_append] at hl
    omega
  have hnodup : (task :: crew.channel.map (·.1)).Nodup :=
    List.nodup_cons.2 ⟨hsilent, hv.channel_nodup⟩
  have hsub : task :: crew.channel.map (·.1) ⊆ List.range crew.tasks.length := by
    intro i hi
    rcases List.mem_cons.1 hi with rfl | hi
    · exact List.mem_range.2 hlt
    · exact List.mem_range.2 (hv.sender_lt hi)
  simpa [Nat.succ_le_iff] using hnodup.length_le_of_subset hsub

/-- **No task ever waits**: one that has not ended can take its turn. -/
theorem step_isSome (hv : crew.Valid caller request prepared world)
    (hlt : task < crew.tasks.length) (hleft : ∀ report, crew.tasks[task]? ≠ some (.writing report [])) :
    (crew.step caller request task).isSome := by
  have ht : crew.tasks[task]? = some crew.tasks[task] := List.getElem?_eq_getElem hlt
  unfold Crew.step
  cases hc : crew.tasks[task] with
  | waiting invocation objects => rw [ht, hc]; rfl
  | writing report left =>
    rw [hc] at ht
    cases left with
    | nil => exact absurd ht (hleft report)
    | cons effect left =>
      have hroom : crew.hasRoom effect = true := by
        cases effect with
        | fail e => exact decide_eq_true (hv.room ht)
        | _ => rfl
      rw [ht]
      simp only [hroom, if_true]
      rfl

/-- Tasks that can take no turn have all ended. -/
theorem joined_of_stuck (hv : crew.Valid caller request prepared world)
    (h : ∀ task, crew.step caller request task = none) : crew.Joined := by
  intro t ht
  obtain ⟨i, hi, rfl⟩ := List.mem_iff_getElem.1 ht
  by_contra hne
  have hs : (crew.step caller request i).isSome := by
    refine hv.step_isSome hi fun report hr => hne ⟨report, ?_⟩
    exact Option.some.inj ((List.getElem?_eq_getElem hi).symm.trans hr)
  rw [h i] at hs
  cases hs

/-! ## 4. When all tasks have ended -/

/-- **Every webhook has been called once.** -/
theorem calls_perm (hv : crew.Valid caller request prepared world) (hj : crew.Joined) :
    (crew.calls.map (·.1)).Perm (List.range prepared.length) := by
  refine (List.perm_ext_iff_of_nodup hv.nodup List.nodup_range).2 fun i => ?_
  rw [List.mem_range, ← hv.length, List.mem_map]
  constructor
  · rintro ⟨⟨_, report⟩, hm, rfl⟩
    obtain ⟨left, hl⟩ := (hv.called _ report).1 hm
    exact (List.getElem?_eq_some_iff.1 hl).1
  · intro hi
    obtain ⟨report, hr⟩ := hj _ (List.getElem_mem hi)
    exact ⟨(i, report), (hv.called i report).2 ⟨[], hr ▸ List.getElem?_eq_getElem hi⟩, rfl⟩

/-- **The messages in the channel are the errors of the outcomes that end the request**, each from
the task of its webhook. -/
theorem mem_channel_iff (hv : crew.Valid caller request prepared world) (hj : crew.Joined)
    (i : Nat) (e : StatusError) :
    (i, e) ∈ crew.channel ↔ ∃ report p, (i, report) ∈ crew.calls ∧ prepared[i]? = some p ∧
      report.abort? p.1.webhook = some e := by
  have hmem : (i, e) ∈ crew.channel ↔ e ∈ Effect.messages (crew.writesOf i) := by
    simp [← channel_filter]
  have hended : ∀ report left, crew.tasks[i]? = some (.writing report left) → left = [] := by
    intro report left ht
    obtain ⟨report', hr⟩ := hj _ (List.mem_of_getElem? ht)
    cases hr
    rfl
  rw [hmem]
  constructor
  · intro h
    cases ht : crew.tasks[i]? with
    | none => rw [hv.stray i ht] at h; cases h
    | some t =>
      obtain ⟨report, rfl⟩ := hj t (List.mem_of_getElem? ht)
      obtain ⟨p, hp, hm⟩ := hv.messages ht
      rw [Effect.messages_nil, List.append_nil] at hm
      exact ⟨report, p, (hv.called i report).2 ⟨[], ht⟩, hp, by simpa [hm] using h⟩
  · rintro ⟨report, p, hc, hp, ha⟩
    obtain ⟨left, ht⟩ := (hv.called i report).1 hc
    obtain rfl := hended report left ht
    obtain ⟨p', hp', hm⟩ := hv.messages ht
    obtain rfl : p = p' := Option.some.inj (hp.symm.trans hp')
    rw [Effect.messages_nil, List.append_nil] at hm
    rw [hm, ha]
    exact List.mem_singleton.2 rfl

theorem of_calls (hv : crew.Valid caller request prepared world) (fit : σ → Prop)
    (rel : Invocation × Versioned → CallReport → Prop)
    (hcall : ∀ p world, fit world → rel p (caller.call request p.1 p.2 world).1 ∧
      fit (caller.call request p.1 p.2 world).2)
    (hw : fit world) {report : CallReport} (hm : (task, report) ∈ crew.calls) :
    ∃ p, prepared[task]? = some p ∧ rel p report := by
  have hall := callAll_forall₂ fit rel hcall (crew.calls.filterMap fun c => prepared[c.1]?) world hw
  rw [hv.sequence] at hall
  refine exists_of_forall₂_filterMap (fun c hc => ?_) hall hm
  obtain ⟨left, ht⟩ := (hv.called c.1 c.2).1 hc
  obtain ⟨p, hp, -⟩ := hv.writing c.1 c.2 left ht
  rw [hp]
  rfl

theorem exists_call (hv : crew.Valid caller request prepared world) {report : CallReport}
    (hm : (task, report) ∈ crew.calls) : ∃ p, prepared[task]? = some p ∧
      ∃ before, report = (caller.call request p.1 p.2 before).1 :=
  hv.of_calls (fun _ => True) (fun p report => ∃ before, report = (caller.call request p.1 p.2 before).1)
    (fun _ world _ => ⟨⟨world, rfl⟩, trivial⟩) trivial hm

end Valid

/-! ## 5. The end of the turns -/

/-- A count of every task, added up. -/
def total (count : Task → Nat) (tasks : List Task) : Nat :=
  tasks.foldr (fun task n => count task + n) 0

/-- The webhooks still to be called, and the writes still to be made after the calls so far. -/
def todo (crew : Crew σ) : Nat × Nat :=
  (total (·.todo.1) crew.tasks, total (·.todo.2) crew.tasks)

theorem total_set (count : Task → Nat) {tasks : List Task} {i : Nat} {old : Task}
    (h : tasks[i]? = some old) (new : Task) :
    total count (tasks.set i new) + count old = total count tasks + count new := by
  induction tasks generalizing i with
  | nil => cases h
  | cons t rest ih =>
    cases i with
    | zero =>
      cases h
      simp only [total, List.set_cons_zero, List.foldr_cons]
      omega
    | succ i =>
      have := ih (i := i) (by simpa using h)
      simp only [total, List.set_cons_succ, List.foldr_cons] at this ⊢
      omega

/-- A turn leaves fewer webhooks to call, or as many and fewer writes to make.  How many writes a call
asks for is known only when it has been made. -/
theorem todo_step {caller : Caller σ} {request : Request} {crew after : Crew σ} {task : Nat}
    (h : crew.step caller request task = some after) :
    Prod.Lex (· < ·) (· < ·) after.todo crew.todo := by
  obtain ⟨invocation, objects, ht, rfl⟩ | ⟨report, effect, left, ht, -, rfl⟩ := step_cases h
  · refine Prod.Lex.left _ _ ?_
    have := total_set (·.todo.1) ht (.writing
      (caller.call request invocation objects crew.world).1 (taskEffects request.operation task
        invocation (caller.call request invocation objects crew.world).1))
    simp only [Task.todo_waiting, Task.todo_writing] at this
    simp only [ask]
    omega
  · have h1 := total_set (·.todo.1) ht (.writing report left)
    have h2 := total_set (·.todo.2) ht (.writing report left)
    simp only [Task.todo_writing, List.length_cons] at h1 h2
    refine Prod.Lex.right' _ ?_ ?_
    · simp only [write]; omega
    · simp only [write]; omega

/-- **The turns come to an end**, whoever takes them: no interleaving goes on forever. -/
theorem not_forever (caller : Caller σ) (request : Request) (crews : Nat → Crew σ) :
    ∃ n, ∀ task, (crews n).step caller request task ≠ some (crews (n + 1)) := by
  have wf : WellFounded fun after before : Crew σ =>
      ∃ task, before.step caller request task = some after := by
    refine Subrelation.wf (fun ⟨task, h⟩ => todo_step h) (InvImage.wf todo ?_)
    exact (Prod.lex ⟨_, Nat.lt_wfRel.wf⟩ ⟨_, Nat.lt_wfRel.wf⟩).wf
  have := IsWellFounded.mk wf
  obtain ⟨n, hn⟩ := WellFounded.not_rel_apply_succ
    (r := fun after before : Crew σ => ∃ task, before.step caller request task = some after) crews
  exact ⟨n, fun task h => hn ⟨task, h⟩⟩

end Crew

end ValidatingDispatch

end Admission
