import Admission.Proofs.Dispatch.Fidelity
import Admission.Proofs.Dispatch.Script
import Admission.Proofs.Dispatch.TwoRuns

/-!
# Webhooks that fail open do not show

A webhook that is to be passed over when it cannot be asked, and that can never be asked, might as well not
be there (`failing_open_does_not_show`).  That it is there costs a conversion to its kind, a place in the
count and a note about it.  Restating the kind of the objects twice is restating it once, so two runs, one
with such webhooks and one without, hold the same objects but for the kind they were last held in
(`Run.Tied`); and the count and the notes show in the marks of dispatch only (`IsMark`).  Of the tasks of a
validating dispatch those that fail open make no writes that are plain, and the others have another number
(`placeOf`) but write the same.
-/

namespace Admission

variable {σ τ : Type}

/-! ## 1. Marks -/

/-- Whether the key of an annotation is one that is kept for dispatch itself. -/
def IsMark (key : String) : Prop :=
  ∃ start ∈ [Mutation.annotationStart, Policy.failOpenKey .mutating, Policy.failOpenKey .validating],
    ∃ rest, key = start ++ "/" ++ rest

theorem isMark_annotationKey {start : String} (h : start ∈ noteStarts) (index : Nat) :
    IsMark (annotationKey start index) :=
  ⟨start, h, placeKey index, annotationKey_eq start index⟩

theorem exists_mark_of_turnNote (hook : Webhook) (index : Nat) (report : CallReport) :
    ∃ key value, MutatingDispatch.turnNote hook index report = .annotate key value ∧ IsMark key := by
  unfold MutatingDispatch.turnNote
  split
  · exact ⟨_, _, rfl, isMark_annotationKey (by simp [noteStarts]) index⟩
  · exact ⟨_, _, rfl, isMark_annotationKey (failOpenKey_mem _) index⟩

open Classical in
/-- Whether the client gets to see a write, and not as a mark. -/
noncomputable def Effect.isPlain : Effect → Bool
  | .annotate key _ => decide (¬ IsMark key)
  | .warn _ | .fail _ => true
  | .measure _ _ | .countFailOpen _ | .countRejection _ => false

theorem Effect.filter_shown (effects : List Effect) :
    (shown effects).filter isPlain = effects.filter isPlain := by
  unfold shown
  rw [List.filter_filter]
  congr 1
  funext effect
  cases effect <;> simp [isPlain, isShown]

/-- **Records that are the same but for marks.** -/
structure AuditRecord.AgreesOffMarks (a b : AuditRecord) : Prop where
  warnings : a.warnings = b.warnings
  annotations : ∀ key, ¬ IsMark key → a.annotations.get? key = b.annotations.get? key

namespace AuditRecord.AgreesOffMarks

variable {a b : AuditRecord}

theorem refl (a : AuditRecord) : a.AgreesOffMarks a := ⟨rfl, fun _ _ => rfl⟩

theorem symm (h : a.AgreesOffMarks b) : b.AgreesOffMarks a :=
  ⟨h.warnings.symm, fun key hk => (h.annotations key hk).symm⟩

theorem trans {c : AuditRecord} (h : a.AgreesOffMarks b) (h' : b.AgreesOffMarks c) :
    a.AgreesOffMarks c :=
  ⟨h.warnings.trans h'.warnings, fun key hk => (h.annotations key hk).trans (h'.annotations key hk)⟩

theorem note (h : a.AgreesOffMarks b) (effect : Effect) :
    (effect.note a).AgreesOffMarks (effect.note b) := by
  cases effect with
  | annotate key value =>
    refine ⟨?_, fun k hk => ?_⟩
    · rw [Effect.note, Effect.note, AuditRecord.warnings_offer, AuditRecord.warnings_offer, h.warnings]
    · rw [Effect.note, Effect.note, AuditRecord.get?_offer, AuditRecord.get?_offer]
      split
      · rename_i hkey
        rw [h.annotations key (hkey ▸ hk)]
      · exact h.annotations k hk
  | warn text =>
    refine ⟨?_, h.annotations⟩
    show a.warnings ++ [text] = b.warnings ++ [text]
    rw [h.warnings]
  | measure _ _ | countFailOpen _ | countRejection _ | fail _ => exact h

theorem note_left (h : a.AgreesOffMarks b) {key : String} (hk : IsMark key) (value : String) :
    (Effect.note a (.annotate key value)).AgreesOffMarks b := by
  refine ⟨(AuditRecord.warnings_offer ..).trans h.warnings, fun k hk' => ?_⟩
  have hne : k ≠ key := fun heq => hk' (heq ▸ hk)
  rw [Effect.note, AuditRecord.get?_offer, if_neg hne]
  exact h.annotations k hk'

theorem noteAll (h : a.AgreesOffMarks b) (effects : List Effect) :
    (Effect.noteAll a effects).AgreesOffMarks (Effect.noteAll b effects) := by
  induction effects generalizing a b with
  | nil => exact h
  | cons effect rest ih => exact ih (h.note effect)

theorem noteAll_filter (h : a.AgreesOffMarks b) (effects : List Effect) :
    (Effect.noteAll a effects).AgreesOffMarks
      (Effect.noteAll b (effects.filter Effect.isPlain)) := by
  induction effects generalizing a b with
  | nil => exact h
  | cons effect rest ih =>
    by_cases hplain : effect.isPlain = true
    · rw [List.filter_cons_of_pos hplain]
      exact ih (h.note effect)
    · rw [List.filter_cons_of_neg hplain]
      refine ih (a := effect.note a) ?_
      cases effect with
      | annotate key value =>
        have hmark : IsMark key := by simpa [Effect.isPlain] using hplain
        exact h.note_left hmark value
      | warn _ | fail _ => exact absurd rfl hplain
      | measure _ _ | countFailOpen _ | countRejection _ => exact h

/-- **A record depends on the plain writes alone**, but for marks. -/
theorem of_filter (r : AuditRecord) {xs ys : List Effect}
    (h : xs.filter Effect.isPlain = ys.filter Effect.isPlain) :
    (Effect.noteAll r xs).AgreesOffMarks (Effect.noteAll r ys) := by
  have hx := (refl r).noteAll_filter xs
  have hy := (refl r).noteAll_filter ys
  rw [← h] at hy
  exact hx.trans hy.symm

end AuditRecord.AgreesOffMarks

/-! ## 2. Two runs -/

namespace Script

/-- **A webhook that fails open** whatever it is sent. -/
structure FailsOpen (script : Script) (request : Request) (invocation : Invocation) : Prop where
  ignored : invocation.webhook.failurePolicy = .ignore
  fails : ∀ objects, ∃ webhook cause,
    (script.call request invocation objects).2 = .error (.calling webhook cause)

theorem FailsOpen.ending {script : Script} {request : Request} {invocation : Invocation}
    (h : script.FailsOpen request invocation) (hk : invocation.kind.isComplete = true) :
    script.ending request invocation .relabel = none := by
  obtain ⟨objects, hobjects, -⟩ := (Versioned.submitted request).convertTo_relabel hk
  obtain ⟨webhook, cause, hfails⟩ := h.fails objects
  unfold Script.ending Versioned.ofRequest Script.abort? CallReport.abort?
  rw [hobjects]
  dsimp only
  rw [hfails]
  exact if_pos h.ignored

/-- **A webhook whose patches leave the kind alone**, defaults included. -/
def KeepsKind (script : Script) (scheme : Scheme) (request : Request) (invocation : Invocation) : Prop :=
  ∀ objects response patch object result,
    (script.call request invocation objects).2 = .ok response →
    Mutation.patchOf response = .ok patch → patch ≠ [] → objects.object = some object →
    object.types = some invocation.kind.typeMeta → Mutation.patchObject patch object = .ok result →
    (scheme.applyDefaults result).types = object.types

end Script

namespace MutatingDispatch

variable {caller : Caller σ} {script : Script} {fit : σ → Prop} {scheme : Scheme}
  {request : Request}

/-- **Runs that hold the same objects**, but for the kind they were last held in, and have the same on
record but for marks. -/
structure Run.Tied (fit : σ → Prop) (request : Request) (a b : Run σ) : Prop where
  left : (a.held request).Stated
  right : (b.held request).Stated
  same : ∀ kind, (a.held request).withKind kind = (b.held request).withKind kind
  record : a.tally.record.AgreesOffMarks b.tally.record
  fits : fit a.world ∧ fit b.world

theorem stated_of_conclude {invocation : Invocation}
    (hkeeps : script.KeepsKind scheme request invocation) {objects : Versioned}
    (hs : objects.Stated) (hkind : objects.kind = invocation.kind) {report : CallReport}
    (hcall : (report.sent, report.outcome) = script.call request invocation objects)
    {object : Option Object}
    (h : Mutation.conclude scheme invocation.webhook report objects.object = .ok object)
    (dirty : Bool) :
    Versioned.Stated { objects with object := object, dirty := dirty } := by
  rw [Versioned.stated_iff] at hs ⊢
  refine ⟨?_, hs.2⟩
  obtain ⟨-, rfl⟩ | ⟨patch, before, after, hpatch, hne, hbefore, hafter, rfl⟩ :=
    Mutation.conclude_cases h
  · exact hs.1
  · obtain ⟨response, ho, -, hread⟩ := Mutation.exists_response_of_patch? hpatch hne
    have hstated := hs.1 before hbefore
    intro o hm
    obtain rfl := Option.mem_some.1 hm
    rw [hkeeps objects response patch before after (by rw [← hcall]; exact ho) hread hne hbefore
      (hkind ▸ hstated) hafter]
    exact hstated

section Steps

variable (hf : caller.Follows script fit) (hconvert : scheme.convert = .relabel) {invocation : Invocation}
  (hcomplete : invocation.kind.isComplete = true)

include hf hconvert hcomplete

theorem stated_step {run : Run σ} (hs : (run.held request).Stated) (hw : fit run.world)
    (hkeeps : script.KeepsKind scheme request invocation) (index : Nat) :
    ((step caller scheme request index invocation run).2.held request).Stated := by
  have hobjects := hs.convertTo hcomplete
  rw [← hconvert] at hobjects
  have hstated := (run.held request).stated_withKind invocation.kind
  obtain ⟨report, after, hcall, -, -, hstep⟩ := step_scripted hf hw hobjects index
  cases hend : Mutation.conclude scheme invocation.webhook report
      ((run.held request).withKind invocation.kind).object with
  | error e =>
    rw [hend] at hstep
    obtain ⟨ha, hafter⟩ := hstep
    rw [ha, Run.held, hafter]
    exact hstated
  | ok object =>
    rw [hend] at hstep
    obtain ⟨ha, hafter, -⟩ := hstep
    rw [ha, Run.held, hafter]
    exact stated_of_conclude hkeeps hstated rfl hcall hend _

/-- A webhook that is called by both runs is sent the same, and leaves them tied. -/
theorem Run.Tied.step {a b : Run σ} (h : a.Tied fit request b)
    (hkeeps : script.KeepsKind scheme request invocation) (index place : Nat) :
    ∃ stop x y a' b', MutatingDispatch.step caller scheme request index invocation a = (stop, a') ∧
      MutatingDispatch.step caller scheme request place invocation b = (stop, b') ∧
      a'.reports = a.reports ++ [x] ∧ b'.reports = b.reports ++ [y] ∧ x.sent = y.sent ∧
      a'.Tied fit request b' := by
  obtain ⟨hcalla, hnexta⟩ := hf.call h.fits.1 request invocation
    ((a.held request).withKind invocation.kind)
  obtain ⟨hcallb, hnextb⟩ := hf.call h.fits.2 request invocation
    ((a.held request).withKind invocation.kind)
  have hsame := Prod.mk.inj (hcalla.trans hcallb.symm)
  have hobjectsa := h.left.convertTo hcomplete
  have hobjectsb := h.right.convertTo hcomplete
  rw [← hconvert] at hobjectsa hobjectsb
  obtain ⟨stop, a', b', hs, hs', hv, hw, hturn⟩ := step_alike hobjectsa
    (by rw [hobjectsb, h.same]) (Webhook.SameRole.refl _) (.inl hsame.2) index place
  have hheld : a'.held request = b'.held request := by
    unfold Run.held
    rw [hturn.objects]
  have hstated := stated_step hf hconvert hcomplete h.left h.fits.1 hkeeps index
  rw [hs] at hstated
  refine ⟨stop, _, _, a', b', hs, hs', hturn.left, hturn.right, hsame.1, hstated, hheld ▸ hstated,
    fun kind => by rw [hheld], ?_, hv ▸ hnexta, hw ▸ hnextb⟩
  obtain ⟨effects, ⟨ha, hb⟩ | ⟨ha, hb⟩⟩ := hturn.record
  · rw [ha, hb]
    exact h.record.noteAll effects
  · -- the notes may be at different places, but either is a mark
    obtain ⟨key, value, hnote, hmark⟩ := exists_mark_of_turnNote invocation.webhook index
      (caller.call request invocation ((a.held request).withKind invocation.kind) a.world).1
    obtain ⟨key', value', hnote', hmark'⟩ := exists_mark_of_turnNote invocation.webhook place
      (caller.call request invocation ((a.held request).withKind invocation.kind) b.world).1
    rw [ha, hb, hnote, hnote']
    exact (((h.record.noteAll effects).note_left hmark value).symm.note_left hmark' value').symm

/-- A webhook that fails open leaves a run tied to one that does not call it. -/
theorem Run.Tied.step_open {a b : Run σ} (h : a.Tied fit request b)
    (hopen : script.FailsOpen request invocation) (index : Nat) :
    ∃ x a', MutatingDispatch.step caller scheme request index invocation a = (none, a') ∧
      a'.reports = a.reports ++ [x] ∧ a'.Tied fit request b := by
  have hobjects := h.left.convertTo hcomplete
  rw [← hconvert] at hobjects
  obtain ⟨report, a', hcall, hnext, hreports, hstep⟩ := step_scripted hf h.fits.1 hobjects index
  obtain ⟨webhook, cause, hfails⟩ := hopen.fails ((a.held request).withKind invocation.kind)
  have houtcome : report.outcome = .error (.calling webhook cause) :=
    (congrArg Prod.snd hcall).trans hfails
  have hfailed : report.Failed := ⟨webhook, cause, houtcome⟩
  have hconclude : Mutation.conclude scheme invocation.webhook report
      ((a.held request).withKind invocation.kind).object =
        .ok ((a.held request).withKind invocation.kind).object := by
    unfold Mutation.conclude CallReport.abort? CallReport.patch?
    rw [houtcome]
    dsimp only
    rw [if_pos hopen.ignored]
    rfl
  have hpatches : report.patches = false := by
    unfold CallReport.patches CallReport.patch?
    rw [houtcome]
    rfl
  rw [hconclude] at hstep
  obtain ⟨hs, hafter, hrecord⟩ := hstep
  have hheld : a'.held request = (a.held request).withKind invocation.kind := by
    rw [Run.held, hafter, hpatches, Bool.or_false]
    rfl
  refine ⟨report, a', hs, hreports, ?_, h.right, fun kind => ?_, ?_, hnext, h.fits.2⟩
  · rw [hheld]
    exact Versioned.stated_withKind _ _
  · rw [hheld, Versioned.withKind_withKind, h.same]
  · obtain ⟨key, value, hnote, hmark⟩ := exists_mark_of_turnNote invocation.webhook index report
    rw [hrecord, ← Effect.noteAll_shown, hfailed.shown_effects, hnote]
    exact h.record.note_left hmark value

end Steps

/-- **Runs stay tied to their end**, and the webhooks that both call are sent the same. -/
theorem Run.Tied.steps (hf : caller.Follows script fit) (hconvert : scheme.convert = .relabel)
    {invocations : List Invocation} (hcomplete : ∀ i ∈ invocations, i.kind.isComplete = true)
    (hkeeps : ∀ i ∈ invocations, script.KeepsKind scheme request i) {keep : Invocation → Bool}
    (hopen : ∀ i ∈ invocations, keep i = false → script.FailsOpen request i) {a b : Run σ}
    (h : a.Tied fit request b) (index place : Nat) :
    ∃ stop xs ys a' b', MutatingDispatch.steps caller scheme request index invocations a = (stop, a') ∧
      MutatingDispatch.steps caller scheme request place (invocations.filter keep) b = (stop, b') ∧
      a'.reports = a.reports ++ xs ∧ b'.reports = b.reports ++ ys ∧
      ((invocations.zip xs).filter (keep ·.1)).map (·.2.sent) = ys.map (·.sent) ∧
      a'.Tied fit request b' := by
  induction invocations generalizing a b index place with
  | nil => exact ⟨none, [], [], a, b, rfl, rfl, by simp, by simp, rfl, h⟩
  | cons i rest ih =>
    have ih := fun {a b} (h : Run.Tied fit request a b) =>
      ih (fun i hi => hcomplete i (List.mem_cons_of_mem _ hi))
        (fun i hi => hkeeps i (List.mem_cons_of_mem _ hi))
        (fun i hi => hopen i (List.mem_cons_of_mem _ hi)) h
    cases hk : keep i with
    | true =>
      obtain ⟨stop, x, y, a', b', hs, hs', hx, hy, hsent, htied⟩ := h.step hf hconvert
        (hcomplete i List.mem_cons_self) (hkeeps i List.mem_cons_self) index place
      rw [List.filter_cons_of_pos hk, MutatingDispatch.steps, MutatingDispatch.steps, hs, hs']
      cases stop with
      | some e =>
        exact ⟨some e, [x], [y], a', b', rfl, rfl, hx, hy, by simp [hk, hsent], htied⟩
      | none =>
        obtain ⟨stop, xs, ys, a'', b'', ht, ht', hxs, hys, hsents, hend⟩ :=
          ih htied (index + 1) (place + 1)
        refine ⟨stop, x :: xs, y :: ys, a'', b'', ht, ht', ?_, ?_, ?_, hend⟩
        · rw [hxs, hx, List.append_assoc, List.singleton_append]
        · rw [hys, hy, List.append_assoc, List.singleton_append]
        · simp [hk, hsent, hsents]
    | false =>
      obtain ⟨x, a', hs, hx, htied⟩ := h.step_open hf hconvert (hcomplete i List.mem_cons_self)
        (hopen i List.mem_cons_self hk) index
      have hdrop : ¬ keep i = true := by rw [hk]; decide
      rw [List.filter_cons_of_neg hdrop, MutatingDispatch.steps, hs]
      obtain ⟨stop, xs, ys, a'', b'', ht, ht', hxs, hys, hsents, hend⟩ := ih htied (index + 1) place
      refine ⟨stop, x :: xs, ys, a'', b'', ht, ht', ?_, hys, ?_, hend⟩
      · rw [hxs, hx, List.append_assoc, List.singleton_append]
      · simp [hk, hsents]

/-- **What the request is left with** is known from the objects with the kind of the request restated. -/
theorem admitted_of_stated (hconvert : scheme.convert = .relabel)
    (hrequest : request.kind.isComplete = true) {run : Run σ} (hs : (run.held request).Stated) :
    admitted scheme request run.objects = .ok
      (match (run.held request).withKind request.kind with
        | ⟨_, some object, _, true⟩ => { request with object := some object }
        | _ => request) := by
  unfold Run.held at hs ⊢
  revert hs
  cases run.objects with
  | none =>
    intro _
    unfold Versioned.withKind Versioned.submitted admitted
    cases request.object <;> rfl
  | some v =>
    intro hs
    obtain ⟨kind, object, oldObject, dirty⟩ := v
    unfold admitted Versioned.withKind
    cases dirty with
    | false => cases object <;> rfl
    | true =>
      cases object with
      | none => rfl
      | some object =>
        dsimp only [Option.getD_some, Option.map_some]
        split
        · rename_i hk
          have hsame : object.withKind kind = object :=
            Option.some.inj (congrArg Versioned.object hs)
          rw [← hk, hsame]
        · rw [hconvert, Versioned.convertObject_relabel hrequest]
          rfl

end MutatingDispatch

/-! ## 3. Tasks -/

namespace ValidatingDispatch

/-- **The plain writes of a task** are those of its call, and the error that it ends the request with. -/
theorem filter_taskEffects (operation : Operation) (i : Nat) (invocation : Invocation)
    (report : CallReport) :
    (taskEffects operation i invocation report).filter Effect.isPlain =
      (report.effects invocation.webhook operation).filter Effect.isPlain ++
        (report.abort? invocation.webhook).toList.map .fail := by
  have hmark : IsMark (annotationKey (Policy.failOpenKey invocation.webhook.kind) i) :=
    isMark_annotationKey (failOpenKey_mem _) i
  unfold taskEffects CallReport.abort?
  rw [List.filter_append]
  congr 1
  cases report.outcome with
  | ok response => by_cases ha : response.allowed <;> simp [ha, Policy.evaluate, Effect.isPlain]
  | error failure =>
    cases failure with
    | calling webhook cause =>
      by_cases hp : invocation.webhook.failurePolicy = .ignore <;>
        simp [Policy.evaluate, hp, Effect.isPlain, hmark]
    | rejected e | status e => simp [Policy.evaluate, Effect.isPlain]

theorem filter_taskEffects_congr {x y : CallReport} (h : x.outcome = y.outcome)
    (operation : Operation) (invocation : Invocation) (i j : Nat) :
    (taskEffects operation i invocation x).filter Effect.isPlain =
      (taskEffects operation j invocation y).filter Effect.isPlain := by
  have halike : x.Alike y := .inl h
  rw [filter_taskEffects, filter_taskEffects, ← Effect.filter_shown (x.effects ..),
    halike.shown_effects (.refl _), Effect.filter_shown, halike.abort? (.refl _)]

theorem filter_taskEffects_open {report : CallReport} (hfailed : report.Failed)
    {invocation : Invocation} (hignored : invocation.webhook.failurePolicy = .ignore)
    (operation : Operation) (i : Nat) :
    (taskEffects operation i invocation report).filter Effect.isPlain = [] := by
  rw [filter_taskEffects, ← Effect.filter_shown, hfailed.shown_effects]
  obtain ⟨webhook, cause, ho⟩ := hfailed
  unfold CallReport.abort?
  rw [ho]
  simp [hignored]

section Crews

variable {caller : Caller σ} {script : Script} {fit : σ → Prop} {scheme : Scheme}
  {request : Request} {invocations : List Invocation} {world : σ} {keep : Invocation → Bool}
  {a b : Crew σ}

theorem Crew.Finished.kept_of_mem_order (hf : caller.Follows script fit) (hw : fit world)
    (hopen : ∀ i ∈ invocations, keep i = false → script.FailsOpen request i)
    (ha : a.Finished caller scheme request invocations world) {task : Nat}
    (hm : task ∈ a.order Effect.isPlain) : (invocations[task]?).any keep = true := by
  obtain ⟨⟨k, effect⟩, hwrite, hk⟩ := List.mem_map.1 hm
  obtain rfl : k = task := hk
  have hplain : effect ∈ (a.writesOf k).filter Effect.isPlain := by
    rw [Crew.filter_writesOf]
    exact List.mem_map.2 ⟨_, List.mem_filter.2 ⟨hwrite, decide_eq_true rfl⟩, rfl⟩
  obtain ⟨-, hnone⟩ | ⟨invocation, report, hi, hcall, hwrites⟩ := ha.writesOf k
  · rw [hnone] at hplain
    cases hplain
  · rw [hi]
    by_contra hkeep
    have hdropped : keep invocation = false := by simpa using hkeep
    have hfails := hopen invocation (List.mem_of_getElem? hi) hdropped
    obtain ⟨other, objects, hother, -, hscripted⟩ := ha.exists_scripted hf hw hcall
    obtain rfl : invocation = other := Option.some.inj (hi.symm.trans hother)
    obtain ⟨webhook, cause, hfailed⟩ := hfails.fails objects
    rw [hwrites, filter_taskEffects_open ⟨webhook, cause, ?_⟩ hfails.ignored] at hplain
    · cases hplain
    · exact (congrArg Prod.snd hscripted).trans hfailed

/-- **Tasks of webhooks that are kept are called with the same**, and it comes to the same. -/
theorem Crew.Finished.kept_calls (hf : caller.Follows script fit) (hw : fit world)
    (ha : a.Finished caller scheme request invocations world)
    (hb : b.Finished caller scheme request (invocations.filter keep) world) {i : Nat}
    {x y : CallReport} (hx : (placeOf keep invocations i, x) ∈ a.calls) (hy : (i, y) ∈ b.calls) :
    x.sent = y.sent ∧ x.outcome = y.outcome := by
  obtain ⟨p, objects, hp, ho, hcall⟩ := ha.exists_scripted hf hw hx
  obtain ⟨q, objects', hq, ho', hcall'⟩ := hb.exists_scripted hf hw hy
  rw [getElem?_placeOf] at hp
  obtain rfl : p = q := Option.some.inj (hp.symm.trans hq)
  obtain rfl : objects = objects' := Except.ok.inj (ho.symm.trans ho')
  exact Prod.mk.inj (hcall.trans hcall'.symm)

/-- **Tasks of webhooks that are kept make the same plain writes**, if they make them in the same order. -/
theorem Crew.Finished.plain_writes (hf : caller.Follows script fit) (hw : fit world)
    (hopen : ∀ i ∈ invocations, keep i = false → script.FailsOpen request i)
    (ha : a.Finished caller scheme request invocations world)
    (hb : b.Finished caller scheme request (invocations.filter keep) world)
    (horder : (a.order Effect.isPlain).filter (fun task => (invocations[task]?).any keep) =
      (b.order Effect.isPlain).map (placeOf keep invocations)) :
    (a.writes.map (·.2)).filter Effect.isPlain = (b.writes.map (·.2)).filter Effect.isPlain := by
  rw [List.filter_eq_self.2 fun task hm => ha.kept_of_mem_order hf hw hopen hm] at horder
  refine ha.filter_writes hb (placeOf_injective keep invocations)
    (fun i => by rw [getElem?_placeOf]) (fun i p q x y hp hq hx hy => ?_) horder
  rw [getElem?_placeOf] at hp
  obtain rfl : p = q := Option.some.inj (hp.symm.trans hq)
  exact filter_taskEffects_congr (ha.kept_calls hf hw hb hx hy).2 _ p _ i

end Crews

end ValidatingDispatch

/-! ## 4. Two dispatches -/

open MutatingDispatch in
/-- **Webhooks that fail open whatever they are sent might as well not be there.**  Without some of them
a mutating dispatch comes to the same verdict and leaves the same request, the webhooks that remain are
sent the same reviews, and the same is on record but for marks.  A validating dispatch, in whatever
interleaving, lets the request pass just as well; the webhooks that remain are sent the same reviews; and
if their tasks make their writes in the same order, the verdict is the same with its error, and the same is
on record but for marks. -/
theorem failing_open_does_not_show {caller : Caller σ} {script : Script} {fit : σ → Prop}
    (hf : caller.Follows script fit) {scheme : Scheme} (hconvert : scheme.convert = .relabel)
    {request : Request} (hrequest : request.kind.isComplete = true)
    (hobject : ∀ o ∈ request.object, o.types = some request.kind.typeMeta)
    (hold : ∀ o ∈ request.oldObject, o.types = some request.kind.typeMeta)
    {invocations : List Invocation} (hcomplete : ∀ i ∈ invocations, i.kind.isComplete = true)
    (hkeeps : ∀ i ∈ invocations, script.KeepsKind scheme request i) {keep : Invocation → Bool}
    (hopen : ∀ i ∈ invocations, keep i = false → script.FailsOpen request i) (world : σ)
    (hw : fit world) (tally : Tally) :
    (let all := dispatch caller scheme request tally invocations world
     let less := dispatch caller scheme request tally (invocations.filter keep) world
     all.verdict = less.verdict ∧ all.request = less.request ∧
       ((invocations.zip all.reports).filter (keep ·.1)).map (·.2.sent) = less.reports.map (·.sent) ∧
       all.tally.record.AgreesOffMarks less.tally.record) ∧
    (∀ all less, ValidatingDispatch.ComesTo caller scheme request tally invocations world all →
      ValidatingDispatch.ComesTo caller scheme request tally (invocations.filter keep) world less →
      (all.verdict = .ok () ↔ less.verdict = .ok ())) ∧
    ∀ a b, ValidatingDispatch.Crew.Finished caller scheme request invocations world a →
      ValidatingDispatch.Crew.Finished caller scheme request (invocations.filter keep) world b →
      (∀ i x y, (placeOf keep invocations i, x) ∈ a.calls → (i, y) ∈ b.calls → x.sent = y.sent) ∧
      ((a.order Effect.isPlain).filter (fun task => (invocations[task]?).any keep) =
          (b.order Effect.isPlain).map (placeOf keep invocations) →
        (a.outcome request tally).verdict = (b.outcome request tally).verdict ∧
        (a.outcome request tally).tally.record.AgreesOffMarks
          (b.outcome request tally).tally.record) := by
  refine ⟨?_, ?_, ?_⟩
  · have hstated : (Versioned.submitted request).Stated := Versioned.stated_iff.2 ⟨hobject, hold⟩
    have hstart : Run.Tied fit request ⟨none, tally, [], world⟩ ⟨none, tally, [], world⟩ :=
      ⟨hstated, hstated, fun _ => rfl, .refl _, hw, hw⟩
    obtain ⟨stop, xs, ys, a, b, hs, hs', hxs, hys, hsents, htied⟩ :=
      hstart.steps hf hconvert hcomplete hkeeps hopen 0 0
    rw [List.nil_append] at hxs hys
    rw [← hxs, ← hys] at hsents
    unfold dispatch
    rw [hs, hs']
    cases stop with
    | some e => exact ⟨rfl, rfl, hsents, htied.record⟩
    | none =>
      dsimp only
      rw [admitted_of_stated hconvert hrequest htied.left,
        admitted_of_stated hconvert hrequest htied.right, htied.same]
      exact ⟨rfl, rfl, hsents, htied.record⟩
  · intro all less hall hless
    rw [(ValidatingDispatch.verdict_of_comesTo hf hw hall).1,
      (ValidatingDispatch.verdict_of_comesTo hf hw hless).1]
    refine ⟨fun h i hi => h i (List.mem_filter.1 hi).1, fun h i hi => ?_⟩
    cases hk : keep i with
    | true => exact h i (List.mem_filter.2 ⟨hi, hk⟩)
    | false =>
      rw [hconvert]
      exact (hopen i hi hk).ending (hcomplete i hi)
  · intro a b ha hb
    refine ⟨fun i x y hx hy => (ha.kept_calls hf hw hb hx hy).1, fun horder => ?_⟩
    have hplain := ha.plain_writes hf hw hopen hb horder
    refine ⟨ValidatingDispatch.Crew.verdict_congr (fun _ => rfl) hplain, ?_⟩
    unfold ValidatingDispatch.Crew.outcome
    rw [Effect.record_applyAll, Effect.record_applyAll]
    exact .of_filter tally.record hplain

/-! ### a pod and a webhook that is never there -/

open MutatingDispatch

/-- Adds a label. -/
def addedLabel : String :=
  "[\x7b\"op\":\"add\",\"path\":\"/metadata/labels\",\"value\":\x7b\"a\":\"b\"\x7d\x7d]"

/-- One webhook adds a label to a pod that has none, and nobody else can be reached. -/
def labelling : Script where
  refusal _ := none
  reply hook review :=
    if hook.name = "patcher" ∧ review.request.bind (·.object) = some namedPod.toJson then .ok {
      apiVersion := Review.version
      kind := Review.kindName
      response := some {
        uid := "req-uid"
        allowed := true
        patch := some (Utf8.encode addedLabel)
        patchType := some Review.jsonPatch } }
    else .error (.connect "webhook.test:80" "connection refused")

/-- A webhook that may be passed over, and is never there. -/
def absentInvocation : Invocation :=
  { podInvocation with
    webhook := { Webhook.bare "absent" .mutating with failurePolicy := .ignore } }

theorem keepsKind_labelling : ∀ i ∈ [absentInvocation, podInvocation],
    labelling.KeepsKind plainScheme podCreation i := by
  intro i hi objects response patch object result hcall hpatch _ ho ht hresult
  obtain ⟨answer, hreply, hverify⟩ := Script.exists_reply_of_call hcall
  have hresponse := Review.response_of_verify hverify
  unfold labelling at hreply
  dsimp only at hreply
  split at hreply
  · rename_i hasked
    cases hreply
    cases hresponse
    -- the patch is applied to what was sent, and that is the pod without labels
    have hsent : object.toJson = namedPod.toJson := by
      have h := hasked.2
      rw [ho] at h
      exact Option.some.inj h
    have hsame : Mutation.patchObject patch object = Mutation.patchObject patch namedPod := by
      unfold Mutation.patchObject
      rw [hsent]
    have hread : Mutation.patchOf {
        uid := "req-uid"
        allowed := true
        patch := some (Utf8.encode addedLabel)
        patchType := some Review.jsonPatch } =
          .ok [.add ["metadata", "labels"] (.obj [("a", .str "b")])] := by decide +kernel
    rw [hread] at hpatch
    cases hpatch
    have hlabelled : (Mutation.patchObject [.add ["metadata", "labels"] (.obj [("a", .str "b")])]
        namedPod).map (·.types) = .ok namedPod.types := by decide +kernel
    rw [← hsame, hresult] at hlabelled
    have htypes : result.types = namedPod.types := Except.ok.inj hlabelled
    have hkind : i.kind = podInvocation.kind := by
      rcases List.mem_pair.1 hi with rfl | rfl <;> rfl
    rw [ht, hkind]
    exact htypes
  · cases hreply

/-- The pod gets its label with or without the webhook that is never there. -/
theorem failing_open_does_not_show_labelled_pod :
    let all := dispatch labelling.caller plainScheme podCreation ⟨.empty, {}, []⟩
      [absentInvocation, podInvocation] ()
    let less := dispatch labelling.caller plainScheme podCreation ⟨.empty, {}, []⟩ [podInvocation] ()
    all.verdict = .ok () ∧ all.request ≠ podCreation ∧ less.verdict = .ok () ∧
      less.request = all.request := by
  have hopen : ∀ i ∈ [absentInvocation, podInvocation], decide (i.webhook.name ≠ "absent") = false →
      labelling.FailsOpen podCreation i := by
    intro i hi hk
    rcases List.mem_pair.1 hi with rfl | rfl
    · exact ⟨rfl, fun objects => ⟨_, _, rfl⟩⟩
    · exact absurd hk (by decide)
  have hrelabel : plainScheme.convert = .relabel := rfl
  have hcomplete : podCreation.kind.isComplete = true := by decide
  have hsame := (failing_open_does_not_show labelling.follows_caller hrelabel hcomplete
    (fun o h => by cases h; decide) (fun o h => by cases h) (by decide) keepsKind_labelling hopen ()
    trivial ⟨.empty, {}, []⟩).1
  have hok : (dispatch labelling.caller plainScheme podCreation ⟨.empty, {}, []⟩
      [absentInvocation, podInvocation] ()).verdict = .ok () := by decide +kernel
  have hlabelled : (dispatch labelling.caller plainScheme podCreation ⟨.empty, {}, []⟩
      [absentInvocation, podInvocation] ()).request ≠ podCreation := by decide +kernel
  have hless : [absentInvocation, podInvocation].filter (fun i => i.webhook.name ≠ "absent") =
      [podInvocation] := by decide
  rw [hless] at hsame
  obtain ⟨hverdict, hrequest, -⟩ := hsame
  exact ⟨hok, hlabelled, hverdict.symm.trans hok, hrequest.symm⟩

end Admission
