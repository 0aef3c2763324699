import Admission.Proofs.Dispatch.Collected
import Mathlib.Algebra.BigOperators.Group.List.Lemmas

/-!
# Every outcome is counted once

Three things can be counted of a webhook that was attempted: nothing if it allowed the request, that it was
passed over, or that it ended the request.  A dispatch makes no other counts, so what it adds to the metrics
is known from what became of each webhook (`Metrics.Tallied`), in a mutating dispatch by induction on the
webhooks that are called one after another, in a validating one because the writes of all tasks together are
those of each, in some order (`ValidatingDispatch.Crew.Finished.writes_perm_calls`).

Hence the accounts balance (`Metrics.Accounted`).  Only a failing conversion is not the doing of any webhook: it
ends a dispatch with an error that is counted nowhere, and is excluded where a verdict is read off the counts.
-/

namespace Admission

/-! ## 1. Totals -/

namespace Metrics

section Totals

variable {α : Type} [DecidableEq α]

theorem distinct_spec (entries : List α) :
    (distinct entries).Nodup ∧ ∀ a, a ∈ distinct entries ↔ a ∈ entries := by
  induction entries using List.reverseRecOn with
  | nil => simp [distinct]
  | append_singleton entries last ih =>
    obtain ⟨hnodup, hmem⟩ := ih
    have hstep : distinct (entries ++ [last]) =
        if (distinct entries).contains last then distinct entries else distinct entries ++ [last] :=
      List.foldl_append
    by_cases hlast : last ∈ entries
    · rw [hstep, if_pos (by simpa [hmem] using hlast)]
      refine ⟨hnodup, fun a => ?_⟩
      rw [hmem, List.mem_append, List.mem_singleton]
      exact ⟨.inl, fun h => h.elim id fun h => h ▸ hlast⟩
    · rw [hstep, if_neg (by simpa [hmem] using hlast)]
      refine ⟨List.nodup_append.2 ⟨hnodup, List.nodup_singleton _, ?_⟩, fun a => ?_⟩
      · rintro a ha b hb hab
        rw [hab, List.mem_singleton.1 hb] at ha
        exact hlast ((hmem last).1 ha)
      · rw [List.mem_append, List.mem_append, hmem]

/-- **What a counter stands at** under all its labels together. -/
def total (entries : List α) : Nat := ((distinct entries).map entries.count).sum

theorem total_eq_length (entries : List α) : total entries = entries.length := by
  obtain ⟨hnodup, hmem⟩ := distinct_spec entries
  have hperm : (distinct entries).Perm entries.dedup :=
    (List.perm_ext_iff_of_nodup hnodup (List.nodup_dedup _)).2 fun a => by
      rw [hmem, List.mem_dedup]
  calc total entries = (entries.dedup.map entries.count).sum := (hperm.map _).sum_eq
    _ = entries.length := List.sum_map_count_dedup_eq_length entries

/-- **What is added to a counter** for some items, each of which is counted once or not at all. -/
theorem counts_of_perm {β : Type} {before after : List α} {items : List β} {look : β → Option α}
    (h : after.Perm (before ++ items.filterMap look)) :
    total after = total before + items.countP (fun b => (look b).isSome) ∧
      ∀ a, after.count a = before.count a + items.countP fun b => look b = some a := by
  constructor
  · rw [total_eq_length, total_eq_length, h.length_eq, List.length_append,
      List.length_filterMap_eq_countP]
  · intro a
    rw [h.count_eq, List.count_append, List.count_filterMap]
    congr 1
    exact List.countP_congr fun b _ => by simp

end Totals

/-! ## 2. What is counted of webhooks -/

/-- **What has been counted of webhooks**, given what became of each: their counts, in some order, and nothing
of the reviews that came in and went out. -/
structure Tallied (operation : Operation) (fates : List (Webhook × Fate)) (before after : Metrics) :
    Prop where
  rejections : after.rejections.Perm
    (before.rejections ++ fates.filterMap fun f => f.2.rejection? f.1 operation)
  failOpens : after.failOpens.Perm (before.failOpens ++ fates.filterMap fun f => f.2.failOpen? f.1)
  requests : after.requests = before.requests
  responses : after.responses = before.responses

/-- **The accounts balance**: what became of the webhooks that were attempted, the metrics before and after,
and the verdict agree. -/
structure Accounted (operation : Operation) (fates : List (Webhook × Fate)) (before after : Metrics)
    (verdict : Except StatusError Unit) : Prop where
  /-- Every webhook has allowed the request or is in one of the totals. -/
  conserved : fates.length + total before.failOpens + total before.rejections =
    fates.countP (·.2 = .allowed) + total after.failOpens + total after.rejections
  /-- The rejections are of the webhooks that ended the request. -/
  rejected : total after.rejections =
    total before.rejections + fates.countP fun f => f.2.error?.isSome
  /-- They are counted with the type and the code of what became of the webhook, and under no other labels. -/
  rejections : ∀ labels, after.rejections.count labels = before.rejections.count labels +
    fates.countP fun f => f.2.rejection? f.1 operation = some labels
  failOpens : ∀ labels, after.failOpens.count labels = before.failOpens.count labels +
    fates.countP fun f => f.2.failOpen? f.1 = some labels
  /-- The request is refused exactly if there are more rejections than before. -/
  refused : (∃ e, verdict = .error e) ↔ total before.rejections < total after.rejections
  /-- It is refused with the error of a webhook that ended it. -/
  error : ∀ e, verdict = .error e → ∃ f ∈ fates, f.2.error? = some e

section Tallied

variable {operation : Operation} {before after : Metrics} {fates : List (Webhook × Fate)}

theorem tallied_nil (operation : Operation) (metrics : Metrics) : Tallied operation [] metrics metrics :=
  ⟨by simp, by simp, rfl, rfl⟩

theorem Tallied.append {mid : Metrics} {others : List (Webhook × Fate)}
    (h : Tallied operation fates before mid) (ho : Tallied operation others mid after) :
    Tallied operation (fates ++ others) before after where
  rejections := by
    rw [List.filterMap_append, ← List.append_assoc]
    exact ho.rejections.trans (h.rejections.append_right _)
  failOpens := by
    rw [List.filterMap_append, ← List.append_assoc]
    exact ho.failOpens.trans (h.failOpens.append_right _)
  requests := ho.requests.trans h.requests
  responses := ho.responses.trans h.responses

/-- Each of the webhooks has allowed the request or is counted once. -/
theorem length_eq_of_counts (operation : Operation) (fates : List (Webhook × Fate)) :
    fates.countP (·.2 = .allowed) + fates.countP (fun f => (f.2.failOpen? f.1).isSome) +
      fates.countP (fun f => (f.2.rejection? f.1 operation).isSome) = fates.length := by
  induction fates with
  | nil => rfl
  | cons f rest ih =>
    have honce := f.2.counted_once f.1 operation
    rw [List.countP_cons, List.countP_cons, List.countP_cons, List.length_cons]
    simp only [decide_eq_true_eq]
    omega

/-- **The accounts balance** if the verdict is that of the webhooks. -/
theorem Tallied.accounted (h : Tallied operation fates before after)
    {verdict : Except StatusError Unit}
    (hok : verdict = .ok () ↔ ∀ f ∈ fates, f.2.error? = none)
    (herror : ∀ e, verdict = .error e → ∃ f ∈ fates, f.2.error? = some e) :
    Accounted operation fates before after verdict := by
  obtain ⟨hrejected, hrejections⟩ := counts_of_perm h.rejections
  obtain ⟨hopened, hopens⟩ := counts_of_perm h.failOpens
  have hconserved := length_eq_of_counts operation fates
  have hended : total after.rejections =
      total before.rejections + fates.countP fun f => f.2.error?.isSome := by
    simpa only [Fate.isSome_rejection?] using hrejected
  refine ⟨by omega, hended, hrejections, hopens, ?_, herror⟩
  have hmore : (∃ f ∈ fates, f.2.error?.isSome = true) ↔
      total before.rejections < total after.rejections := by
    rw [← List.countP_pos_iff, hended]
    omega
  rw [← hmore]
  constructor
  · rintro ⟨e, he⟩
    obtain ⟨f, hf, hfe⟩ := herror e he
    exact ⟨f, hf, by rw [hfe]; rfl⟩
  · rintro ⟨f, hf, hsome⟩
    cases hverdict : verdict with
    | error e => exact ⟨e, rfl⟩
    | ok u =>
      rw [hok.1 hverdict f hf] at hsome
      cases hsome

end Tallied

end Metrics

open Metrics (Tallied Accounted total)

namespace Effect

theorem reviews_applyAll (effects : List Effect) (tally : Tally) :
    (applyAll tally effects).metrics.requests = tally.metrics.requests ∧
      (applyAll tally effects).metrics.responses = tally.metrics.responses := by
  induction effects generalizing tally with
  | nil => exact ⟨rfl, rfl⟩
  | cons effect rest ih =>
    obtain ⟨hrequests, hresponses⟩ := ih (effect.apply tally)
    refine ⟨hrequests.trans ?_, hresponses.trans ?_⟩ <;> cases effect <;> rfl

theorem tallied_applyAll {effects : List Effect} {operation : Operation} {fates : List (Webhook × Fate)}
    (hrejected : (effects.filterMap rejected?).Perm
      (fates.filterMap fun f => f.2.rejection? f.1 operation))
    (hopened : (effects.filterMap failedOpen?).Perm (fates.filterMap fun f => f.2.failOpen? f.1))
    (tally : Tally) : Tallied operation fates tally.metrics (applyAll tally effects).metrics := by
  obtain ⟨-, hrejections, hopens⟩ := metrics_applyAll effects tally
  obtain ⟨hrequests, hresponses⟩ := reviews_applyAll effects tally
  refine ⟨?_, ?_, hrequests, hresponses⟩
  · rw [hrejections]
    exact hrejected.append_left _
  · rw [hopens]
    exact hopened.append_left _

/-- Writes that count nothing of webhooks. -/
def Uncounted (effects : List Effect) : Prop :=
  ∀ effect ∈ effects, rejected? effect = none ∧ failedOpen? effect = none

theorem uncounted_singleton {effect : Effect}
    (h : rejected? effect = none ∧ failedOpen? effect = none) : Uncounted [effect] :=
  fun _ hm => List.mem_singleton.1 hm ▸ h

section Called

variable (report : CallReport) (hook : Webhook) (operation : Operation) (fate : Fate)
  {rest : List Effect} (hrest : Uncounted rest)
include hrest

theorem filterMap_counted :
    (report.effects hook operation ++ (fate.counted hook operation ++ rest)).filterMap rejected? =
        (fate.rejection? hook operation).toList ∧
      (report.effects hook operation ++ (fate.counted hook operation ++ rest)).filterMap failedOpen? =
        (fate.failOpen? hook).toList := by
  have hrejected : rest.filterMap rejected? = [] :=
    List.filterMap_eq_nil_iff.2 fun effect hm => (hrest effect hm).1
  have hopened : rest.filterMap failedOpen? = [] :=
    List.filterMap_eq_nil_iff.2 fun effect hm => (hrest effect hm).2
  simp only [List.filterMap_append, hrejected, hopened, List.append_nil]
  rw [report.filterMap_effects (fun _ _ => rfl) (fun _ _ => rfl) (fun _ => rfl),
    report.filterMap_effects (fun _ _ => rfl) (fun _ _ => rfl) (fun _ => rfl)]
  cases fate <;> exact ⟨rfl, rfl⟩

/-- **A webhook that was called counts what has become of it.** -/
theorem tallied_called (tally : Tally) : Tallied operation [(hook, fate)] tally.metrics
    (applyAll tally (report.effects hook operation ++
      (fate.counted hook operation ++ rest))).metrics := by
  obtain ⟨hrejected, hopened⟩ := filterMap_counted report hook operation fate hrest
  refine tallied_applyAll ?_ ?_ tally
  · rw [hrejected, filterMap_cons_toList, List.filterMap_nil, List.append_nil]
  · rw [hopened, filterMap_cons_toList, List.filterMap_nil, List.append_nil]

end Called

end Effect

/-! ## 3. A mutating dispatch -/

namespace MutatingDispatch

open Mutation

variable {σ : Type}

/-- What becomes of the next webhook after some calls. -/
def fateAfter (scheme : Scheme) (request : Request) (earlier : History)
    (call : Invocation × CallReport) : Fate :=
  match objectIn scheme request earlier call.1.kind with
  | .ok object => fateOn scheme call.1.webhook call.2 object
  | .error _ => call.2.fate call.1.webhook none

/-- What becomes of webhooks that are called one after another, after some calls. -/
def fatesAfter (scheme : Scheme) (request : Request) : History → History → List (Webhook × Fate)
  | _, [] => []
  | earlier, call :: rest =>
    (call.1.webhook, fateAfter scheme request earlier call) ::
      fatesAfter scheme request (earlier ++ [call]) rest

/-- **What has become of the webhooks that have been called.** -/
def fates (scheme : Scheme) (request : Request) (history : History) : List (Webhook × Fate) :=
  fatesAfter scheme request [] history

/-- **No conversion fails.**  Those before a webhook that was called did not.  What is left is the one for the
next webhook, if the request has passed all webhooks so far, and the one back to the kind of the request, if it
has passed them all and one of them has patched the object. -/
structure Converts (scheme : Scheme) (request : Request) (invocations : List Invocation)
    (reports : List CallReport) : Prop where
  forth : ∀ invocation, invocations[reports.length]? = some invocation →
    (∃ held, objectAfter scheme request (invocations.zip reports) = .ok held) →
    (∃ object, objectIn scheme request (invocations.zip reports) invocation.kind = .ok object) ∧
      ∃ object, oldObjectIn scheme request (invocations.zip reports) invocation.kind = .ok object
  back : reports.length = invocations.length →
    (∃ held, objectAfter scheme request (invocations.zip reports) = .ok held) →
    (∃ call ∈ invocations.zip reports, call.2.patches = true) →
    ∃ object, objectIn scheme request (invocations.zip reports) request.kind = .ok object

section Fates

variable {scheme : Scheme} {request : Request}

theorem length_fatesAfter (earlier history : History) :
    (fatesAfter scheme request earlier history).length = history.length := by
  induction history generalizing earlier with
  | nil => rfl
  | cons call rest ih => rw [fatesAfter, List.length_cons, List.length_cons, ih]

theorem fatesAfter_append (earlier xs ys : History) :
    fatesAfter scheme request earlier (xs ++ ys) =
      fatesAfter scheme request earlier xs ++ fatesAfter scheme request (earlier ++ xs) ys := by
  induction xs generalizing earlier with
  | nil => rw [List.append_nil]; rfl
  | cons call rest ih =>
    rw [List.cons_append, fatesAfter, fatesAfter, ih, List.append_assoc]
    rfl

theorem fates_concat (history : History) (call : Invocation × CallReport) :
    fates scheme request (history ++ [call]) =
      fates scheme request history ++ [(call.1.webhook, fateAfter scheme request history call)] :=
  fatesAfter_append [] history [call]

theorem fateAfter_eq {earlier : History} {call : Invocation × CallReport} {object : Option Object}
    (h : objectIn scheme request earlier call.1.kind = .ok object) :
    fateAfter scheme request earlier call = fateOn scheme call.1.webhook call.2 object := by
  unfold fateAfter
  rw [h]

theorem error?_of_objectAfter {history : History} {held : GroupVersionKind × Option Object}
    (h : objectAfter scheme request history = .ok held) :
    ∀ f ∈ fates scheme request history, f.2.error? = none := by
  induction history using List.reverseRecOn generalizing held with
  | nil => exact fun f hf => by cases hf
  | append_singleton history call ih =>
    rw [objectAfter_concat] at h
    obtain ⟨object, hobject, hrest⟩ := bind_eq_ok.1 h
    obtain ⟨result, hresult, -⟩ := bind_eq_ok.1 hrest
    obtain ⟨before, hbefore, -⟩ := bind_eq_ok.1 hobject
    intro f hf
    rw [fates_concat, List.mem_append, List.mem_singleton] at hf
    rcases hf with hf | rfl
    · exact ih hbefore f hf
    · rw [fateAfter_eq hobject, error?_fateOn, hresult]
      rfl

/-- Webhooks that take a request in its own kind need no conversion. -/
theorem converts_of_kinds {invocations : List Invocation}
    (hkinds : ∀ invocation ∈ invocations, invocation.kind = request.kind) (reports : List CallReport) :
    Converts scheme request invocations reports := by
  have hhistory : ∀ call ∈ invocations.zip reports, call.1.kind = request.kind := fun call hm =>
    hkinds call.1 (List.of_mem_zip hm).1
  have hheld : ∀ held, objectAfter scheme request (invocations.zip reports) = .ok held →
      held.1 = request.kind := by
    generalize invocations.zip reports = history at hhistory
    intro held h
    obtain rfl | ⟨earlier, call, rfl⟩ := history.eq_nil_or_concat'
    · cases h
      rfl
    · rw [objectAfter_concat] at h
      obtain ⟨object, -, h⟩ := bind_eq_ok.1 h
      obtain ⟨result, -, h⟩ := bind_eq_ok.1 h
      cases h
      exact hhistory call (by simp)
  have hold : oldObjectAfter scheme request (invocations.zip reports) =
      .ok (request.kind, request.oldObject) := by
    generalize invocations.zip reports = history at hhistory
    induction history using List.reverseRecOn with
    | nil => rfl
    | append_singleton earlier call ih =>
      have hkind := hhistory call (by simp)
      rw [oldObjectAfter_concat, oldObjectIn, ih fun c hc => hhistory c (List.mem_append_left _ hc), hkind]
      simp [bind, Except.bind, Versioned.reexpress, pure, Except.pure]
  have hobject : ∀ kind, kind = request.kind →
      (∃ held, objectAfter scheme request (invocations.zip reports) = .ok held) →
      ∃ object, objectIn scheme request (invocations.zip reports) kind = .ok object := by
    rintro kind hkind ⟨held, h⟩
    refine ⟨held.2, bind_eq_ok.2 ⟨held, h, ?_⟩⟩
    rw [Versioned.reexpress, if_pos ((hheld held h).trans hkind.symm)]
  constructor
  case forth =>
    intro invocation hnext hpassed
    have hkind := hkinds invocation (List.mem_of_getElem? hnext)
    refine ⟨hobject _ hkind hpassed, request.oldObject, bind_eq_ok.2 ⟨_, hold, ?_⟩⟩
    rw [Versioned.reexpress, if_pos hkind.symm]
  case back => exact fun _ hpassed _ => hobject _ rfl hpassed

end Fates

section Run

variable {caller : Caller σ} {scheme : Scheme} {request : Request} {world : σ}
  {past : List (Invocation × Versioned)} {run after : Run σ} {stop : Option StatusError}

/-- **One step counts what becomes of its webhook**, if it gets as far as calling it. -/
theorem Run.Follows.step_tallied (h : run.Follows caller scheme request world past) {index : Nat}
    {invocation : Invocation}
    (hs : MutatingDispatch.step caller scheme request index invocation run = (stop, after)) :
    (after = run ∧ stop ≠ none) ∨
    ∃ report, after.reports = run.reports ++ [report] ∧
      Tallied request.operation [(invocation.webhook,
        fateAfter scheme request (historyOf past run.reports) (invocation, report))]
        run.tally.metrics after.tally.metrics ∧
      (stop = none → ∃ objects,
        after.Follows caller scheme request world (past ++ [(invocation, objects)])) := by
  cases hc : (run.held request).convertTo scheme.convert invocation.kind with
  | error e =>
    rw [step_unconvertible caller scheme request index invocation run hc] at hs
    cases hs
    exact .inl ⟨rfl, by simp⟩
  | ok objects =>
    right
    generalize hcall : caller.call request invocation objects run.world = called
    obtain ⟨report, next⟩ := called
    obtain ⟨after', notes, hs', hreports, hnotes, htally⟩ :=
      step_tallies caller scheme request index invocation run hc hcall
    obtain ⟨hstop, rfl⟩ := Prod.mk.inj (hs.symm.trans hs')
    have hfate : fateAfter scheme request (historyOf past run.reports) (invocation, report) =
        fateOn scheme invocation.webhook report objects.object := fateAfter_eq (h.reached hc).1.object
    refine ⟨report, hreports, ?_, fun hnone => ?_⟩
    · rw [hfate]
      have huncounted : Effect.Uncounted notes := fun note hnote => by
        obtain ⟨key, value, rfl⟩ := hnotes note hnote
        exact ⟨rfl, rfl⟩
      rw [htally]
      exact Effect.tallied_called report invocation.webhook request.operation _ huncounted run.tally
    · rcases h.step index invocation with ⟨e, he, -⟩ | ⟨objects', _, after', -, -, -, hend⟩
      · rw [hc] at he
        cases he
      · rcases hend with ⟨e, -, hse⟩ | ⟨hsn, hnext⟩
        · rw [hs, hnone] at hse
          cases hse
        · rw [hs] at hsn
          exact ⟨objects', (Prod.mk.inj hsn).2 ▸ hnext⟩

/-- **A run counts what becomes of the webhooks it calls.** -/
theorem Run.Follows.steps_tallied (h : run.Follows caller scheme request world past) {index : Nat}
    {rest : List Invocation}
    (hs : MutatingDispatch.steps caller scheme request index rest run = (stop, after)) :
    ∃ reports, after.reports = run.reports ++ reports ∧
      Tallied request.operation
        (fatesAfter scheme request (historyOf past run.reports) (rest.zip reports))
        run.tally.metrics after.tally.metrics := by
  induction rest generalizing index past run with
  | nil =>
    cases hs
    exact ⟨[], (List.append_nil _).symm, Metrics.tallied_nil _ _⟩
  | cons invocation rest ih =>
    unfold MutatingDispatch.steps at hs
    generalize hstep : MutatingDispatch.step caller scheme request index invocation run = stepped at hs
    obtain ⟨first, next⟩ := stepped
    obtain ⟨rfl, hfirst⟩ | ⟨report, hreports, htallied, hnext⟩ := h.step_tallied hstep
    · cases first with
      | none => exact absurd rfl hfirst
      | some e =>
        cases hs
        exact ⟨[], (List.append_nil _).symm, Metrics.tallied_nil _ _⟩
    · cases first with
      | some e =>
        cases hs
        refine ⟨[report], hreports, ?_⟩
        rw [List.zip_cons_cons, List.zip_nil_right]
        exact htallied
      | none =>
        obtain ⟨objects, hfollows⟩ := hnext rfl
        obtain ⟨reports, hafter, hothers⟩ := ih hfollows hs
        rw [hreports, historyOf_concat h.calls.length] at hothers
        refine ⟨report :: reports, ?_, htallied.append hothers⟩
        rw [hafter, hreports, List.append_assoc]
        rfl

end Run

section Dispatch

variable {scheme : Scheme} {request : Request}

/-- **A mutating dispatch counts what becomes of the webhooks it calls**, and nothing else. -/
theorem tallied_of_dispatch (caller : Caller σ) (scheme : Scheme) (request : Request) (tally : Tally)
    (invocations : List Invocation) (world : σ) :
    let after := dispatch caller scheme request tally invocations world
    Tallied request.operation (fates scheme request (invocations.zip after.reports))
      tally.metrics after.tally.metrics := by
  intro after
  generalize hrun : steps caller scheme request 0 invocations ⟨none, tally, [], world⟩ = ended
  obtain ⟨stop, run⟩ := ended
  obtain ⟨reports, hreports, htallied⟩ :=
    (Run.follows_start caller scheme request tally world).steps_tallied hrun
  rw [show after.reports = run.reports from (dispatch_reports hrun).1, hreports,
    show after.tally = run.tally from dispatch_tally hrun]
  exact htallied

/-- **Where no conversion fails, the verdict is that of the webhooks**: at most one of them has ended the
request, and if one has, it is refused with its error. -/
theorem Ending.errors {invocations : List Invocation} {after : Dispatched σ}
    (h : Ending scheme request invocations after)
    (hc : Converts scheme request invocations after.reports) :
    (fates scheme request (invocations.zip after.reports)).filterMap (·.2.error?) =
      (errorOf? after.verdict).toList := by
  have hpass : ∀ history held, objectAfter scheme request history = .ok held →
      (fates scheme request history).filterMap (·.2.error?) = [] := fun history held hheld =>
    List.filterMap_eq_nil_iff.2 (error?_of_objectAfter hheld)
  cases h with
  | unconvertible next passed failed verdict same =>
    obtain ⟨⟨object, hobject⟩, old, hold⟩ := hc.forth _ next passed
    rw [hobject, hold] at failed
    rcases failed with failed | ⟨_, -, failed⟩ <;> cases failed
  | aborted history reached failed verdict same =>
    obtain ⟨held, hheld, -⟩ := bind_eq_ok.1 reached
    rw [history, fates_concat, List.filterMap_append, hpass _ held hheld, fateAfter_eq reached, verdict]
    simp [error?_fateOn, failed, errorOf?]
  | untouched all passed unpatched verdict same =>
    obtain ⟨held, hheld⟩ := passed
    rw [hpass _ held hheld, verdict]
    rfl
  | changed all patched left verdict changed =>
    obtain ⟨held, hheld, -⟩ := bind_eq_ok.1 left
    rw [hpass _ held hheld, verdict]
    rfl
  | unreturnable all patched passed failed verdict same =>
    obtain ⟨object, hobject⟩ := hc.back all passed patched
    rw [hobject] at failed
    cases failed

/-- **The accounts of a mutating dispatch balance** if no conversion fails, and there is at most one more
rejection than before; a request that goes on has been through all webhooks. -/
theorem accounted_of_dispatch (caller : Caller σ) (scheme : Scheme) (request : Request) (tally : Tally)
    (invocations : List Invocation) (world : σ) :
    let after := dispatch caller scheme request tally invocations world
    let fates := fates scheme request (invocations.zip after.reports)
    Converts scheme request invocations after.reports →
      fates.length = after.reports.length ∧
      (after.verdict = .ok () → after.reports.length = invocations.length) ∧
      Accounted request.operation fates tally.metrics after.tally.metrics after.verdict ∧
      total after.tally.metrics.rejections ≤ total tally.metrics.rejections + 1 := by
  intro after fates hc
  obtain ⟨stop, run, hrun, hhalt⟩ := exists_halt caller scheme request tally invocations world
  have hending : Ending scheme request invocations after := hhalt.ending hrun
  have herrors : fates.filterMap (·.2.error?) = (errorOf? after.verdict).toList := hending.errors hc
  have hle : after.reports.length ≤ invocations.length := by
    obtain ⟨past, hpast, -, hcalls⟩ := hhalt.calls
    have hlength := congrArg List.length hpast
    rw [List.length_map, hcalls.length, List.length_take, ← (dispatch_reports hrun).1] at hlength
    exact hlength ▸ Nat.min_le_right ..
  have haccounted : Accounted request.operation fates tally.metrics after.tally.metrics after.verdict := by
    refine (tallied_of_dispatch caller scheme request tally invocations world).accounted ?_ fun e he => ?_
    · rw [← List.filterMap_eq_nil_iff, herrors]
      cases after.verdict <;> simp [errorOf?]
    · have hm : e ∈ fates.filterMap (·.2.error?) := by
        rw [herrors, he]
        exact List.mem_singleton.2 rfl
      exact List.mem_filterMap.1 hm
  refine ⟨?_, fun hok => (hending.of_ok hok).1, haccounted, ?_⟩
  · show (fatesAfter scheme request [] (invocations.zip after.reports)).length = _
    rw [length_fatesAfter, List.length_zip, Nat.min_eq_right hle]
  · have hone := Option.length_toList_le (o := errorOf? after.verdict)
    rw [← herrors, List.length_filterMap_eq_countP] at hone
    rw [haccounted.rejected]
    omega

end Dispatch

end MutatingDispatch

/-! ## 4. A validating dispatch -/

namespace ValidatingDispatch

variable {σ : Type}

theorem exists_taskEffects (operation : Operation) (index : Nat) (invocation : Invocation)
    (report : CallReport) : ∃ rest, Effect.Uncounted rest ∧
      taskEffects operation index invocation report = report.effects invocation.webhook operation ++
        ((report.fate invocation.webhook none).counted invocation.webhook operation ++ rest) := by
  unfold taskEffects CallReport.fate
  cases report.outcome with
  | error failure =>
    dsimp only
    rw [Policy.evaluate_eq]
    cases (failure.fate invocation.webhook).error? with
    | some e => exact ⟨[.fail e], Effect.uncounted_singleton ⟨rfl, rfl⟩, rfl⟩
    | none => exact ⟨[.annotate _ _], Effect.uncounted_singleton ⟨rfl, rfl⟩, rfl⟩
  | ok response =>
    dsimp only
    by_cases ha : response.allowed = true
    · rw [if_pos ha, if_pos ha]
      exact ⟨[], fun effect hm => (by cases hm), rfl⟩
    · rw [if_neg ha, if_neg ha]
      exact ⟨[.fail _], Effect.uncounted_singleton ⟨rfl, rfl⟩, rfl⟩

namespace Crew

/-- **What has become of the webhooks**, in the order in which they were called. -/
def fates (crew : Crew σ) (invocations : List Invocation) : List (Webhook × Fate) :=
  crew.calls.filterMap fun call => invocations[call.1]?.map fun invocation =>
    (invocation.webhook, call.2.fate invocation.webhook none)

section Finished

variable {caller : Caller σ} {scheme : Scheme} {request : Request} {invocations : List Invocation}
  {world : σ} {crew : Crew σ}

/-- **All writes are those of each task**, in some order. -/
theorem Finished.writes_perm_calls (h : crew.Finished caller scheme request invocations world) :
    (crew.writes.map (·.2)).Perm (crew.calls.flatMap fun call =>
      (invocations[call.1]?.map fun invocation =>
        taskEffects request.operation call.1 invocation call.2).getD []) := by
  have hcalled := h.decided.called
  have hnodup : (crew.calls.map (·.1)).Nodup := hcalled.nodup_iff.2 List.nodup_range
  refine perm_flatMap_of_filter hnodup (fun call hm => ?_) fun i hi => ?_
  · obtain ⟨hnone, -⟩ | ⟨invocation, report, hinvocation, hreport, hwrites⟩ := h.writesOf call.1
    · obtain ⟨invocation, -, -, hsome, -⟩ := h.exists_call hm
      rw [hnone] at hsome
      cases hsome
    · have hsame : report = call.2 := by
        have hpairs := List.inj_on_of_nodup_map hnodup hreport hm rfl
        exact congrArg Prod.snd hpairs
      rw [hinvocation, ← hsame]
      exact hwrites
  · obtain ⟨-, hwrites⟩ | ⟨-, report, -, hreport, -⟩ := h.writesOf i
    · exact List.map_eq_nil_iff.1 hwrites
    · exact absurd (List.mem_map.2 ⟨_, hreport, rfl⟩) hi

theorem Finished.filterMap_writes_perm
    (h : crew.Finished caller scheme request invocations world) {β : Type} {look : Effect → Option β}
    {told : Webhook × Fate → Option β} (hlook : ∀ task invocation report,
      (taskEffects request.operation task invocation report).filterMap look =
        (told (invocation.webhook, report.fate invocation.webhook none)).toList) :
    ((crew.writes.map (·.2)).filterMap look).Perm ((crew.fates invocations).filterMap told) := by
  refine (h.writes_perm_calls.filterMap look).trans (.of_eq ?_)
  rw [fates, List.filterMap_filterMap, List.filterMap_flatMap, List.filterMap_eq_flatMap_toList]
  refine List.flatMap_congr fun call hm => ?_
  obtain ⟨invocation, -, -, hinvocation, -⟩ := h.exists_call hm
  rw [hinvocation]
  exact hlook call.1 invocation call.2

/-- **An interleaving counts what becomes of each webhook**, in some order, and nothing else. -/
theorem Finished.tallied (h : crew.Finished caller scheme request invocations world) (tally : Tally) :
    Tallied request.operation (crew.fates invocations) tally.metrics
      (crew.outcome request tally).tally.metrics := by
  refine Effect.tallied_applyAll (h.filterMap_writes_perm ?_) (h.filterMap_writes_perm ?_)
    { tally with errors := [] }
  · intro task invocation report
    obtain ⟨rest, hrest, heq⟩ := exists_taskEffects request.operation task invocation report
    rw [heq]
    exact (Effect.filterMap_counted report invocation.webhook request.operation _ hrest).1
  · intro task invocation report
    obtain ⟨rest, hrest, heq⟩ := exists_taskEffects request.operation task invocation report
    rw [heq]
    exact (Effect.filterMap_counted report invocation.webhook request.operation _ hrest).2

theorem mem_fates_iff {f : Webhook × Fate} : f ∈ crew.fates invocations ↔ ∃ task report invocation,
      (task, report) ∈ crew.calls ∧ invocations[task]? = some invocation ∧
        f = (invocation.webhook, report.fate invocation.webhook none) := by
  unfold fates
  rw [List.mem_filterMap]
  constructor
  · rintro ⟨⟨task, report⟩, hm, hf⟩
    obtain ⟨invocation, hinvocation, rfl⟩ := Option.map_eq_some_iff.1 hf
    exact ⟨task, report, invocation, hm, hinvocation, rfl⟩
  · rintro ⟨task, report, invocation, hm, hinvocation, rfl⟩
    exact ⟨(task, report), hm, by rw [hinvocation]; rfl⟩

/-- **The accounts of every interleaving balance**, with what has become of all webhooks. -/
theorem Finished.accounted (h : crew.Finished caller scheme request invocations world) (tally : Tally) :
    (crew.fates invocations).length = invocations.length ∧
      Accounted request.operation (crew.fates invocations) tally.metrics
        (crew.outcome request tally).tally.metrics crew.verdict := by
  have hdecided := h.decided
  refine ⟨?_, (h.tallied tally).accounted ?_ fun e he => ?_⟩
  · have hall : ∀ call ∈ crew.calls, (invocations[call.1]?.map fun invocation =>
        (invocation.webhook, call.2.fate invocation.webhook none)).isSome = true := by
      intro call hm
      obtain ⟨invocation, -, -, hinvocation, -⟩ := h.exists_call hm
      rw [hinvocation]
      rfl
    have hcalls := hdecided.called.length_eq
    rw [List.length_map, List.length_range] at hcalls
    rw [fates, List.length_filterMap_eq_countP, List.countP_eq_length.2 hall, hcalls]
  · rw [hdecided.ok_iff]
    constructor
    · rintro hpass f hf
      obtain ⟨task, report, invocation, hm, hinvocation, rfl⟩ := mem_fates_iff.1 hf
      rw [← CallReport.abort?_eq_error?]
      exact hpass task report invocation hm hinvocation
    · intro hpass task report invocation hm hinvocation
      rw [CallReport.abort?_eq_error?]
      exact hpass _ (mem_fates_iff.2 ⟨task, report, invocation, hm, hinvocation, rfl⟩)
  · obtain ⟨task, hhead⟩ := (hdecided.first e).1 he
    obtain ⟨report, invocation, hm, hinvocation, habort⟩ :=
      (hdecided.messages task e).1 (List.mem_of_head? hhead)
    refine ⟨_, mem_fates_iff.2 ⟨task, report, invocation, hm, hinvocation, rfl⟩, ?_⟩
    rw [← CallReport.abort?_eq_error?]
    exact habort

end Finished

end Crew

/-- A dispatch is one of the interleavings that come to their end, if no conversion fails. -/
theorem exists_finished (caller : Caller σ) {scheme : Scheme} (scheduler : Scheduler) {request : Request}
    (tally : Tally) {invocations : List Invocation} (world : σ)
    (hconverts : ∀ invocation ∈ invocations, ∃ objects,
      Versioned.ofRequest scheme.convert request invocation.kind = .ok objects) :
    ∃ crew : Crew σ, crew.Finished caller scheme request invocations world ∧
      dispatch caller scheme scheduler request tally invocations world = crew.outcome request tally := by
  cases hprepare : prepare scheme request invocations with
  | error e =>
    obtain ⟨invocation, hm, he⟩ := prepare_error hprepare
    obtain ⟨objects, hobjects⟩ := hconverts invocation hm
    rw [hobjects] at he
    cases he
  | ok prepared =>
    obtain ⟨turns, crew, hrun, hjoined, heq⟩ :=
      dispatch_eq_outcome caller scheme scheduler request tally world hprepare
    exact ⟨crew, ⟨prepared, turns, hprepare, hrun, hjoined⟩, heq⟩

end ValidatingDispatch

end Admission
