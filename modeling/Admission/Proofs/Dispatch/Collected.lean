import Admission.Proofs.Dispatch.Notes
import Admission.Proofs.Dispatch.Script
import Admission.Proofs.Dispatch.TwoRuns

/-!
# What tasks collect in any order

Tasks that run at the same time write into the same record and the same counts.  If each task gets the same
answer in two interleavings, it makes the same writes in both, but for how long its call took
(`Crew.Finished.writesOf_untimed`), so the writes of the two interleavings are the same but for their order
(`Crew.Finished.writes_perm`).  Everything that does not depend on the order of writes is then the same.
What does depend on it is the value of an annotation on which the writers do not agree: there the first write
counts, and what is on record stays.
-/

namespace Admission

variable {σ τ : Type}

/-! ## 1. Writes but for their order -/

namespace Effect

/-- A write without how long something took. -/
def untimed : Effect → Effect
  | .measure labels _ => .measure labels ⟨0⟩
  | effect => effect

/-- What a call is counted under. -/
def called? : Effect → Option CallLabels
  | .measure labels _ => some labels
  | _ => none

def rejected? : Effect → Option RejectionLabels
  | .countRejection labels => some labels
  | _ => none

def failedOpen? : Effect → Option FailOpenLabels
  | .countFailOpen labels => some labels
  | _ => none

/-- **What is counted** is what was counted before and then what is written. -/
theorem metrics_applyAll (effects : List Effect) (tally : Tally) :
    (applyAll tally effects).metrics.calls.map (·.1) =
        tally.metrics.calls.map (·.1) ++ effects.filterMap called? ∧
      (applyAll tally effects).metrics.rejections =
        tally.metrics.rejections ++ effects.filterMap rejected? ∧
      (applyAll tally effects).metrics.failOpens =
        tally.metrics.failOpens ++ effects.filterMap failedOpen? := by
  induction effects generalizing tally with
  | nil => simp [applyAll]
  | cons effect rest ih =>
    obtain ⟨hcalls, hrejections, hopens⟩ := ih (effect.apply tally)
    refine ⟨hcalls.trans ?_, hrejections.trans ?_, hopens.trans ?_⟩ <;> rw [List.filterMap_cons] <;>
      cases effect <;> simp [apply, Metrics.observeCall, Metrics.observeFailOpen,
        Metrics.observeRejection, called?, rejected?, failedOpen?]

theorem filterMap_perm {α : Type} {xs ys : List Effect}
    (h : (xs.map untimed).Perm (ys.map untimed)) (look : Effect → Option α)
    (hlook : ∀ effect, look effect.untimed = look effect) :
    (xs.filterMap look).Perm (ys.filterMap look) := by
  have hsame : ∀ zs : List Effect, (zs.map untimed).filterMap look = zs.filterMap look := by
    intro zs
    rw [List.filterMap_map]
    congr 1
    funext effect
    exact hlook effect
  rw [← hsame xs, ← hsame ys]
  exact h.filterMap look

section Annotations

variable {key value : String} {effects : List Effect}

theorem mem_filterMap_valueFor?_iff :
    value ∈ effects.filterMap (valueFor? key) ↔ .annotate key value ∈ effects := by
  rw [List.mem_filterMap]
  constructor
  · rintro ⟨effect, hm, hvalue⟩
    cases effect with
    | annotate k v =>
      rw [valueFor?] at hvalue
      split at hvalue
      · rename_i hk
        rwa [← hk, ← Option.some.inj hvalue]
      · cases hvalue
    | measure _ _ | warn _ | countFailOpen _ | countRejection _ | fail _ => cases hvalue
  · exact fun hm => ⟨_, hm, if_pos rfl⟩

theorem firstFor?_eq_head? : firstFor? key effects = (effects.filterMap (valueFor? key)).head? :=
  List.head?_filterMap.symm

end Annotations

end Effect

/-- **What is collected alike**, of what there was before and two lists of writes. -/
structure Tally.CollectsAlike (earlier : Tally) (xs ys : List Effect) : Prop where
  /-- The same annotations are there. -/
  keys : ∀ key, ((Effect.applyAll earlier xs).record.annotations.get? key).isSome =
    ((Effect.applyAll earlier ys).record.annotations.get? key).isSome
  /-- They have the same value if it was there before or all writers agree on it. -/
  values : ∀ key, (earlier.record.annotations.get? key).isSome ∨
      (∀ v w, .annotate key v ∈ xs → .annotate key w ∈ xs → v = w) →
    (Effect.applyAll earlier xs).record.annotations.get? key =
      (Effect.applyAll earlier ys).record.annotations.get? key
  /-- The earlier warnings come first, as they were. -/
  warnings : ∃ later other, later.Perm other ∧
    (Effect.applyAll earlier xs).record.warnings = earlier.record.warnings ++ later ∧
    (Effect.applyAll earlier ys).record.warnings = earlier.record.warnings ++ other
  rejections : (Effect.applyAll earlier xs).metrics.rejections.Perm
    (Effect.applyAll earlier ys).metrics.rejections
  failOpens : (Effect.applyAll earlier xs).metrics.failOpens.Perm
    (Effect.applyAll earlier ys).metrics.failOpens
  calls : ((Effect.applyAll earlier xs).metrics.calls.map (·.1)).Perm
    ((Effect.applyAll earlier ys).metrics.calls.map (·.1))

/-- **The same writes in any order collect alike**, however long things took. -/
theorem Tally.collectsAlike_of_perm (earlier : Tally) {xs ys : List Effect}
    (h : (xs.map Effect.untimed).Perm (ys.map Effect.untimed)) : earlier.CollectsAlike xs ys := by
  have hoffers : ∀ key, (xs.filterMap (Effect.valueFor? key)).Perm
      (ys.filterMap (Effect.valueFor? key)) :=
    fun key => Effect.filterMap_perm h _ fun effect => by cases effect <;> rfl
  have hget : ∀ zs : List Effect, ∀ key, (Effect.applyAll earlier zs).record.annotations.get? key =
      (earlier.record.annotations.get? key).or (zs.filterMap (Effect.valueFor? key)).head? := by
    intro zs key
    rw [Effect.record_applyAll, Effect.get?_noteAll, Effect.firstFor?_eq_head?]
  obtain ⟨hcalls, hrejections, hopens⟩ := Effect.metrics_applyAll xs earlier
  obtain ⟨hcalls', hrejections', hopens'⟩ := Effect.metrics_applyAll ys earlier
  constructor
  case keys =>
    intro key
    rw [hget, hget]
    cases earlier.record.annotations.get? key with
    | some value => rfl
    | none => exact isSome_head?_of_perm (hoffers key)
  case values =>
    intro key hkey
    rw [hget, hget]
    cases hearlier : earlier.record.annotations.get? key with
    | some value => rfl
    | none =>
      rw [hearlier] at hkey
      have hagree := hkey.resolve_left (by simp)
      refine head?_eq_of_perm (hoffers key) fun v hv w hw => hagree v w ?_ ?_
      · exact Effect.mem_filterMap_valueFor?_iff.1 hv
      · exact Effect.mem_filterMap_valueFor?_iff.1 hw
  case warnings =>
    refine ⟨_, _, Effect.filterMap_perm h Effect.warning? fun effect => ?_, ?_, ?_⟩
    · cases effect <;> rfl
    · rw [Effect.record_applyAll, Effect.warnings_noteAll]
    · rw [Effect.record_applyAll, Effect.warnings_noteAll]
  case rejections =>
    rw [hrejections, hrejections']
    exact (Effect.filterMap_perm h _ fun effect => by cases effect <;> rfl).append_left _
  case failOpens =>
    rw [hopens, hopens']
    exact (Effect.filterMap_perm h _ fun effect => by cases effect <;> rfl).append_left _
  case calls =>
    rw [hcalls, hcalls']
    exact (Effect.filterMap_perm h _ fun effect => by cases effect <;> rfl).append_left _

/-! ## 2. Tasks -/

namespace CallReport

/-- Whether a call with such an outcome counts as rejected, if it is counted. -/
def countedAs? (report : CallReport) : Option Bool :=
  match report.outcome with
  | .ok response => some (!response.allowed)
  | .error (.calling _ (.exchange _)) => some true
  | .error _ => none

/-- What is measured of a call, but for the time, is known from its outcome. -/
theorem measured_of_call (caller : Caller σ) (request : Request) (invocation : Invocation)
    (objects : Versioned) (world : σ) :
    (caller.call request invocation objects world).1.measured.map (·.1) =
      (caller.call request invocation objects world).1.countedAs? := by
  have hcourse := caller.course_call request invocation objects world
  generalize caller.call request invocation objects world = result at hcourse
  cases hcourse with
  | closed gate =>
    -- nothing has been exchanged, so this is none of the failures that are counted
    rcases Webhook.gate_cases gate with rfl | rfl | rfl <;> rfl
  | clientless | unreached | unverified | answered => rfl

theorem map_untimed_effects {x y : CallReport} (hmeasured : x.measured.map (·.1) = y.measured.map (·.1))
    (houtcome : x.outcome = y.outcome) (hook : Webhook) (operation : Operation) :
    (x.effects hook operation).map Effect.untimed = (y.effects hook operation).map Effect.untimed := by
  unfold CallReport.effects
  rw [List.map_append, List.map_append, houtcome]
  congr 1
  generalize x.measured = first at hmeasured
  generalize y.measured = second at hmeasured
  match first, second with
  | none, none => rfl
  | some (rejected, took), some (other, time) =>
    obtain rfl : rejected = other := Option.some.inj hmeasured
    rfl
  | none, some _ => cases hmeasured
  | some _, none => cases hmeasured

end CallReport

namespace ValidatingDispatch

theorem map_untimed_taskEffects {x y : CallReport}
    (hmeasured : x.measured.map (·.1) = y.measured.map (·.1)) (houtcome : x.outcome = y.outcome)
    (operation : Operation) (task : Nat) (invocation : Invocation) :
    (taskEffects operation task invocation x).map Effect.untimed =
      (taskEffects operation task invocation y).map Effect.untimed := by
  unfold taskEffects
  rw [List.map_append, List.map_append, CallReport.map_untimed_effects hmeasured houtcome, houtcome]

namespace Crew

variable {left : Caller σ} {right : Caller τ} {scheme : Scheme} {request : Request}
  {invocations : List Invocation} {v : σ} {w : τ} {a : Crew σ} {b : Crew τ}

/-- Every task gets the same answer on both sides. -/
def SameOutcomes (a : Crew σ) (b : Crew τ) : Prop :=
  ∀ task x y, (task, x) ∈ a.calls → (task, y) ∈ b.calls → x.outcome = y.outcome

/-- **A task that gets the same answer makes the same writes**, but for how long its call took. -/
theorem Finished.writesOf_untimed (ha : a.Finished left scheme request invocations v)
    (hb : b.Finished right scheme request invocations w) (hsame : a.SameOutcomes b) (task : Nat) :
    (a.writesOf task).map Effect.untimed = (b.writesOf task).map Effect.untimed := by
  obtain ⟨hnone, hwa⟩ | ⟨i, x, hi, hx, hwa⟩ := ha.writesOf task
  · obtain ⟨-, hwb⟩ | ⟨j, y, hj, -, -⟩ := hb.writesOf task
    · rw [hwa, hwb]
    · rw [hnone] at hj
      cases hj
  · obtain ⟨hnone, -⟩ | ⟨j, y, hj, hy, hwb⟩ := hb.writesOf task
    · rw [hnone] at hi
      cases hi
    · obtain rfl : i = j := Option.some.inj (hi.symm.trans hj)
      have houtcome := hsame task x y hx hy
      obtain ⟨_, objects, before, -, hxcall⟩ := ha.exists_call hx
      obtain ⟨_, objects', before', -, hycall⟩ := hb.exists_call hy
      have hmeasured : x.measured.map (·.1) = y.measured.map (·.1) := by
        rw [hxcall, hycall, CallReport.measured_of_call, CallReport.measured_of_call, ← hxcall,
          ← hycall, CallReport.countedAs?, CallReport.countedAs?, houtcome]
      rw [hwa, hwb, map_untimed_taskEffects hmeasured houtcome]

/-- **Two interleavings in which every task gets the same answer make the same writes**, in some order. -/
theorem Finished.writes_perm (ha : a.Finished left scheme request invocations v)
    (hb : b.Finished right scheme request invocations w) (hsame : a.SameOutcomes b) :
    ((a.writes.map (·.2)).map Effect.untimed).Perm ((b.writes.map (·.2)).map Effect.untimed) := by
  have huntimed : ∀ crew : List (Nat × Effect), (crew.map (·.2)).map Effect.untimed =
      (crew.map fun write => (write.1, write.2.untimed)).map (·.2) := by
    intro writes
    rw [List.map_map, List.map_map]
    rfl
  have hpart : ∀ (writes : List (Nat × Effect)) (task : Nat),
      ((writes.map fun write => (write.1, write.2.untimed)).filter (·.1 = task)).map (·.2) =
        ((writes.filter (·.1 = task)).map (·.2)).map Effect.untimed := by
    intro writes task
    rw [List.filter_map, List.map_map, List.map_map]
    rfl
  rw [huntimed, huntimed]
  refine perm_map_snd_of_filter fun task => ?_
  rw [hpart, hpart]
  exact ha.writesOf_untimed hb hsame task

theorem verdict_ok_iff_messages (crew : Crew σ) :
    crew.verdict = .ok () ↔ Effect.messages (crew.writes.map (·.2)) = [] := by
  rw [crew.verdict_eq ⟨.empty, {}, []⟩, Effect.errors_applyAll, List.nil_append]
  cases Effect.messages (crew.writes.map (·.2)) <;> simp

theorem Finished.verdict_ok_iff (ha : a.Finished left scheme request invocations v)
    (hb : b.Finished right scheme request invocations w) (hsame : a.SameOutcomes b) :
    a.verdict = .ok () ↔ b.verdict = .ok () := by
  have hmessages : (Effect.messages (a.writes.map (·.2))).Perm (Effect.messages (b.writes.map (·.2))) :=
    Effect.filterMap_perm (ha.writes_perm hb hsame) _ fun effect => by cases effect <;> rfl
  rw [verdict_ok_iff_messages, verdict_ok_iff_messages]
  exact ⟨fun h => (h ▸ hmessages).nil_eq.symm, fun h => (h ▸ hmessages).eq_nil⟩

theorem Finished.sameOutcomes {caller : Caller σ} {world : σ} {script : Script} {fit : σ → Prop}
    {a b : Crew σ} (hf : caller.Follows script fit) (hw : fit world)
    (ha : a.Finished caller scheme request invocations world)
    (hb : b.Finished caller scheme request invocations world) : a.SameOutcomes b := by
  intro task x y hx hy
  obtain ⟨i, objects, hi, hobjects, hcall⟩ := ha.exists_scripted hf hw hx
  obtain ⟨j, objects', hj, hobjects', hcall'⟩ := hb.exists_scripted hf hw hy
  obtain rfl : i = j := Option.some.inj (hi.symm.trans hj)
  obtain rfl : objects = objects' := Except.ok.inj (hobjects.symm.trans hobjects')
  exact (Prod.mk.inj (hcall.trans hcall'.symm)).2

/-! ## 3. What is on record stays -/

theorem writes_of_step {caller : Caller σ} {crew after : Crew σ} {task : Nat}
    (h : crew.step caller request task = some after) : crew.writes <+: after.writes := by
  obtain ⟨_, _, -, rfl⟩ | ⟨_, effect, _, -, -, rfl⟩ := step_cases h
  · exact List.prefix_refl _
  · exact List.prefix_append _ _

theorem writes_of_run {caller : Caller σ} {crew after : Crew σ} {turns : List Nat}
    (h : run caller request turns crew = some after) : crew.writes <+: after.writes := by
  induction turns generalizing crew with
  | nil =>
    cases h
    exact List.prefix_refl _
  | cons task turns ih =>
    obtain ⟨next, hstep, hrest⟩ := Option.bind_eq_some_iff.1 h
    exact (writes_of_step hstep).trans (ih hrest)

end Crew

end ValidatingDispatch

/-- **More writes leave an annotation as it is.** -/
theorem Effect.get?_noteAll_of_prefix {record : AuditRecord} {xs ys : List Effect} {key value : String}
    (hmore : xs <+: ys) (h : (noteAll record xs).annotations.get? key = some value) :
    (noteAll record ys).annotations.get? key = some value := by
  obtain ⟨more, rfl⟩ := hmore
  have hsplit : noteAll record (xs ++ more) = noteAll (noteAll record xs) more := List.foldl_append
  rw [hsplit, get?_noteAll, h, Option.some_or]

open ValidatingDispatch in
/-- **The order in which tasks end does not change what is collected.**  Let all tasks have ended in two
interleavings, each with the same answer in both, as with answers by a script.  Then the request goes on in
both or in neither, and both have collected alike what can be collected in any order.  Besides, at any time
of any interleaving an annotation has the value that it had before the dispatch or else the one that was
written first, and keeps it for ever; and so it is in a mutating dispatch, write by write. -/
theorem completion_order_does_not_show (caller : Caller σ) (scheme : Scheme) (request : Request)
    (tally : Tally) (invocations : List Invocation) (world : σ) :
    (∀ a b : Crew σ, a.Finished caller scheme request invocations world →
      b.Finished caller scheme request invocations world →
      (∀ script fit, caller.Follows script fit → fit world → a.SameOutcomes b) ∧
      (a.SameOutcomes b →
        ((a.outcome request tally).verdict = .ok () ↔ (b.outcome request tally).verdict = .ok ()) ∧
        Tally.CollectsAlike { tally with errors := [] } (a.writes.map (·.2)) (b.writes.map (·.2)))) ∧
    (∀ prepared turns more mid after,
      Crew.run caller request turns (Crew.spawn prepared world) = some mid →
      Crew.run caller request more mid = some after → ∀ key,
        (mid.outcome request tally).tally.record.annotations.get? key =
          (tally.record.annotations.get? key).or (Effect.firstFor? key (mid.writes.map (·.2))) ∧
        ∀ value, (mid.outcome request tally).tally.record.annotations.get? key = some value →
          (after.outcome request tally).tally.record.annotations.get? key = some value) ∧
    (let after := MutatingDispatch.dispatch caller scheme request tally invocations world
      ∃ passed last, invocations.zip after.reports = passed ++ last ∧ last.length ≤ 1 ∧
        let writes := MutatingDispatch.written request.operation 0 passed last
        after.tally.record = Effect.noteAll tally.record writes ∧ ∀ key,
          after.tally.record.annotations.get? key =
            (tally.record.annotations.get? key).or (Effect.firstFor? key writes) ∧
          ∀ m n value, m ≤ n →
            (Effect.noteAll tally.record (writes.take m)).annotations.get? key = some value →
            (Effect.noteAll tally.record (writes.take n)).annotations.get? key = some value) := by
  refine ⟨fun a b ha hb => ⟨fun script fit hf hw => ha.sameOutcomes hf hw hb, fun hsame => ?_⟩, ?_, ?_⟩
  · exact ⟨ha.verdict_ok_iff hb hsame, Tally.collectsAlike_of_perm _ (ha.writes_perm hb hsame)⟩
  · intro prepared turns more mid after hmid hafter key
    unfold Crew.outcome
    dsimp only
    rw [Effect.record_applyAll, Effect.record_applyAll]
    refine ⟨Effect.get?_noteAll .., fun value h => Effect.get?_noteAll_of_prefix ?_ h⟩
    exact (Crew.writes_of_run hafter).map _
  · intro after
    obtain ⟨passed, last, hzip, hlast, -, hrecord⟩ :=
      MutatingDispatch.record_of_dispatch caller scheme request tally invocations world
    refine ⟨passed, last, hzip, hlast, hrecord, fun key => ⟨?_, fun m n value hle h => ?_⟩⟩
    · rw [show after.tally.record = _ from hrecord, Effect.get?_noteAll]
    · exact Effect.get?_noteAll_of_prefix (List.take_prefix_take_left hle) h

/-! ### two webhooks of one name -/

/-- Each webhook says of itself what configuration it is from. -/
def boasting : Script where
  refusal _ := none
  reply hook _ := .ok {
    apiVersion := Review.version
    kind := Review.kindName
    response := some {
      uid := "req-uid"
      allowed := true
      auditAnnotations := some (.ofFields [("from", hook.configuration)]) } }

/-- A webhook from a configuration. -/
def boasterOf (configuration : String) : Invocation × Versioned :=
  ({ MutatingDispatch.podInvocation with
      webhook := { Webhook.bare "boaster" .validating with configuration := configuration } },
    Versioned.submitted MutatingDispatch.podCreation)

/-- What is on record when the tasks of two webhooks have taken their turns. -/
def boasted (turns : List Nat) : Option String :=
  (ValidatingDispatch.Crew.run boasting.caller MutatingDispatch.podCreation turns
    (ValidatingDispatch.Crew.spawn [boasterOf "first", boasterOf "second"] ())).bind fun crew =>
      (crew.outcome MutatingDispatch.podCreation
        ⟨.empty, {}, []⟩).tally.record.annotations.get? "boaster/from"

/-- Webhooks of one name that do not agree have the value of the one that writes first. -/
example : boasted [0, 1, 0, 0, 1, 1] = some "first" ∧ boasted [0, 1, 1, 1, 0, 0] = some "second" := by
  decide +kernel

end Admission
