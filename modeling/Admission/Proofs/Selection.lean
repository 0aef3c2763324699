import Admission.Plugin
import Admission.Proofs.Results

/-!
# Which webhooks a request is handed to

Whether a webhook is called is decided by its two selectors and its rules.  Each of the three may
fail, and which failure counts is said by `Webhook.SelectionFault`, one constructor for each.  Over the
list of webhooks the choice is made as a whole: either every webhook has been decided on, and those that
apply are handed on in their order, or the first failure is the answer and nobody is called.

A request waits for the webhooks to be known by looking again and again (`looks`); the last look is the
first one at or after the timeout, so a source that is late by less than one interval is still waited
for.
-/

namespace Admission

/-! ## 1. One webhook -/

namespace Webhook

variable {hook : Webhook} {request : Request} {registry : EquivalenceRegistry}
  {namespaces : NamespaceLister}

/-- The equivalent resource that the rules name has no kind. -/
def unknownKind (resource : GroupVersionResource) : StatusError :=
  .internal s!"unable to convert to {resource.text}: unknown kind"

theorem byRules_eq_error {e : StatusError} (h : hook.byRules request registry = .error e) :
    ∃ resource, hook.namedEquivalent? request registry = some resource ∧ e = unknownKind resource := by
  unfold byRules at h
  split at h
  · cases h
  · split at h
    · cases h
    · split at h
      · cases h
      · rename_i resource hnamed
        split at h
        · cases h
        · cases h
          exact ⟨resource, hnamed, rfl⟩

theorem webhook_of_byRules {invocation : Invocation}
    (h : hook.byRules request registry = .ok (some invocation)) : invocation.webhook = hook := by
  unfold byRules at h
  split at h
  · cases h; rfl
  · split at h
    · cases h
    · split at h
      · cases h
      · split at h <;> cases h
        rfl

/-- **How deciding on one webhook fails.** -/
inductive SelectionFault (hook : Webhook) (request : Request) (registry : EquivalenceRegistry)
    (namespaces : NamespaceLister) : StatusError → Prop where
  /-- The rules name an equivalent resource without a kind, and neither selector says no.  A selector
  that errs is not heard. -/
  | unknownKind {resource}
      (named : hook.namedEquivalent? request registry = some resource)
      (failed : hook.byRules request registry = .error (unknownKind resource))
      (byNamespace : hook.namespaceAccepts request namespaces ≠ .ok false)
      (byObject : hook.objectAccepts request ≠ .ok false) :
      SelectionFault hook request registry namespaces (unknownKind resource)
  /-- The rules name the request, the namespace selector errs and the object selector does not say
  no. -/
  | namespaceSelector {e invocation}
      (named : hook.byRules request registry = .ok (some invocation))
      (failed : hook.namespaceAccepts request namespaces = .error e)
      (byObject : hook.objectAccepts request ≠ .ok false) :
      SelectionFault hook request registry namespaces e
  /-- The rules name the request, the namespace selector accepts it and the object selector errs. -/
  | objectSelector {e invocation}
      (named : hook.byRules request registry = .ok (some invocation))
      (byNamespace : hook.namespaceAccepts request namespaces = .ok true)
      (failed : hook.objectAccepts request = .error e) :
      SelectionFault hook request registry namespaces e

theorem rejects_eq_true {answer : Except StatusError Bool} :
    rejects answer = true ↔ answer = .ok false := by
  cases answer with
  | error e => simp [rejects]
  | ok b => cases b <;> simp [rejects]

theorem selectFor_of_rejected
    (h : hook.namespaceAccepts request namespaces = .ok false ∨
      hook.objectAccepts request = .ok false) :
    hook.selectFor request registry namespaces = .ok none := by
  unfold selectFor
  rw [if_pos]
  rw [Bool.or_eq_true, rejects_eq_true, rejects_eq_true]
  exact h

/-- When no selector says no, the rules come first, then the namespace selector, then the object
selector. -/
theorem selectFor_of_not_rejected (hn : hook.namespaceAccepts request namespaces ≠ .ok false)
    (ho : hook.objectAccepts request ≠ .ok false) :
    hook.selectFor request registry namespaces =
      hook.byRules request registry >>= fun
        | none => .ok none
        | some invocation => hook.namespaceAccepts request namespaces >>= fun _ =>
          hook.objectAccepts request >>= fun _ => .ok (some invocation) := by
  have hnot : (rejects (hook.namespaceAccepts request namespaces) ||
      rejects (hook.objectAccepts request)) = false := by
    rw [Bool.or_eq_false_iff, ← Bool.not_eq_true, ← Bool.not_eq_true, rejects_eq_true,
      rejects_eq_true]
    exact ⟨hn, ho⟩
  unfold selectFor
  simp only [hnot]
  rfl

/-- **Deciding on a webhook fails in these ways and no others.** -/
theorem selectFor_eq_error {e : StatusError} :
    hook.selectFor request registry namespaces = .error e ↔
      SelectionFault hook request registry namespaces e := by
  constructor
  · intro h
    have hn : hook.namespaceAccepts request namespaces ≠ .ok false := by
      intro hn
      rw [selectFor_of_rejected (.inl hn)] at h
      cases h
    have ho : hook.objectAccepts request ≠ .ok false := by
      intro ho
      rw [selectFor_of_rejected (.inr ho)] at h
      cases h
    rw [selectFor_of_not_rejected hn ho] at h
    rcases bind_eq_error.1 h with hrules | ⟨named?, hrules, h⟩
    · obtain ⟨resource, hnamed, rfl⟩ := byRules_eq_error hrules
      exact .unknownKind hnamed hrules hn ho
    · cases named? with
      | none => cases h
      | some invocation =>
        rcases bind_eq_error.1 h with hfail | ⟨answer, hok, h⟩
        · exact .namespaceSelector hrules hfail ho
        · have htrue : answer = true := by
            cases answer with
            | true => rfl
            | false => exact absurd hok hn
          rcases bind_eq_error.1 h with hfail | ⟨_, _, h⟩
          · exact .objectSelector hrules (htrue ▸ hok) hfail
          · cases h
  · intro h
    cases h with
    | unknownKind named failed byNamespace byObject =>
      rw [selectFor_of_not_rejected byNamespace byObject, failed]
      rfl
    | namespaceSelector named failed byObject =>
      have hn : hook.namespaceAccepts request namespaces ≠ .ok false := by
        rw [failed]
        exact fun h => by cases h
      rw [selectFor_of_not_rejected hn byObject, named, failed]
      rfl
    | objectSelector named byNamespace failed =>
      have hn : hook.namespaceAccepts request namespaces ≠ .ok false := by
        rw [byNamespace]
        exact fun h => by cases h
      have ho : hook.objectAccepts request ≠ .ok false := by
        rw [failed]
        exact fun h => by cases h
      rw [selectFor_of_not_rejected hn ho, named, byNamespace, failed]
      rfl

theorem webhook_of_selectFor {invocation : Invocation}
    (h : hook.selectFor request registry namespaces = .ok (some invocation)) :
    invocation.webhook = hook := by
  have hn : hook.namespaceAccepts request namespaces ≠ .ok false := by
    intro hn
    rw [selectFor_of_rejected (.inl hn)] at h
    cases h
  have ho : hook.objectAccepts request ≠ .ok false := by
    intro ho
    rw [selectFor_of_rejected (.inr ho)] at h
    cases h
  rw [selectFor_of_not_rejected hn ho] at h
  obtain ⟨named?, hrules, h⟩ := bind_eq_ok.1 h
  cases named? with
  | none => cases h
  | some named =>
    obtain ⟨_, _, h⟩ := bind_eq_ok.1 h
    obtain ⟨_, _, h⟩ := bind_eq_ok.1 h
    cases h
    exact webhook_of_byRules hrules

/-- The call of a webhook that has been decided on, if it applies. -/
def call? (hook : Webhook) (request : Request) (registry : EquivalenceRegistry)
    (namespaces : NamespaceLister) : Option Invocation :=
  (hook.selectFor request registry namespaces).toOption.join

end Webhook

/-! ## 2. All webhooks -/

namespace Plugin

section Select

variable {webhooks : List Webhook} {request : Request} {registry : EquivalenceRegistry}
  {namespaces : NamespaceLister}

theorem select_eq_error {e : StatusError} :
    select webhooks request registry namespaces = .error e ↔
      ∃ earlier hook later, webhooks = earlier ++ hook :: later ∧
        (∀ h ∈ earlier, ∃ chosen, h.selectFor request registry namespaces = .ok chosen) ∧
        hook.selectFor request registry namespaces = .error e := by
  unfold select
  rw [bind_eq_error, ← mapM_eq_error]
  constructor
  · rintro (h | ⟨chosen, -, h⟩)
    · exact h
    · cases h
  · exact .inl

theorem select_of_decided
    (h : ∀ hook ∈ webhooks, ∃ chosen, hook.selectFor request registry namespaces = .ok chosen) :
    select webhooks request registry namespaces =
      .ok (webhooks.filterMap (·.call? request registry namespaces)) := by
  have hall : webhooks.mapM (fun hook => hook.selectFor request registry namespaces) =
      .ok (webhooks.map (·.call? request registry namespaces)) := by
    rw [mapM_eq_ok, List.forall₂_map_right_iff, List.forall₂_same]
    intro hook hm
    obtain ⟨chosen, hc⟩ := h hook hm
    rw [Webhook.call?, hc]
    rfl
  unfold select
  rw [hall]
  show Except.ok _ = _
  rw [List.filterMap_map]
  rfl

theorem webhooks_of_chosen (webhooks : List Webhook) (request : Request)
    (registry : EquivalenceRegistry) (namespaces : NamespaceLister) :
    (webhooks.filterMap (·.call? request registry namespaces)).map (·.webhook) =
      webhooks.filter fun hook => (hook.call? request registry namespaces).isSome := by
  induction webhooks with
  | nil => rfl
  | cons hook rest ih =>
    cases hcall : hook.call? request registry namespaces with
    | none => simp [hcall, ih]
    | some invocation =>
      have hhook : invocation.webhook = hook := by
        unfold Webhook.call? at hcall
        cases hs : hook.selectFor request registry namespaces with
        | error e => rw [hs] at hcall; cases hcall
        | ok chosen =>
          rw [hs] at hcall
          have hchosen : chosen = some invocation := hcall
          exact Webhook.webhook_of_selectFor (hchosen ▸ hs)
      simp [hcall, hhook, ih]

end Select

/-! ## 3. Waiting -/

/-- How many times more a waiting request looks after its first look. -/
def polls (timeout : Time.Span) : Nat :=
  (timeout.nanoseconds + pollInterval.nanoseconds - 1) / pollInterval.nanoseconds

/-- Some looks, one every interval. -/
def looksFrom : (polls : Nat) → Time.Span → List Time.Span
  | 0, now => [now]
  | polls + 1, now => now :: looksFrom polls ⟨now.nanoseconds + pollInterval.nanoseconds⟩

/-- **When a waiting request looks**: at once and then every interval, the last time at the first look
at or after the timeout. -/
def looks (timeout : Time.Span) : List Time.Span := looksFrom (polls timeout) ⟨0⟩

theorem waitFrom_eq (synced : Time.Span → Bool) (polls : Nat) (now : Time.Span) :
    waitFrom synced polls now =
      match (looksFrom polls now).find? synced with
      | some look => (true, look)
      | none => (false, ⟨now.nanoseconds + polls * pollInterval.nanoseconds⟩) := by
  induction polls generalizing now with
  | zero =>
    unfold waitFrom looksFrom
    cases h : synced now <;> simp [h]
  | succ polls ih =>
    unfold waitFrom looksFrom
    cases h : synced now with
    | true => simp [h]
    | false =>
      rw [if_neg (by simp), List.find?_cons_of_neg (by simp [h]), ih]
      split
      · rfl
      · simp only [Prod.mk.injEq, Time.Span.mk.injEq, true_and]
        rw [Nat.succ_mul]
        omega

/-- A look finds the webhooks known, and the first that does ends the waiting. -/
theorem wait_of_find {synced : Time.Span → Bool} {timeout now : Time.Span}
    (h : (looks timeout).find? synced = some now) : wait synced timeout = (true, now) := by
  unfold wait
  rw [waitFrom_eq]
  unfold looks polls at h
  rw [h]

theorem wait_of_unsynced {synced : Time.Span → Bool} {timeout : Time.Span}
    (h : ∀ look ∈ looks timeout, synced look = false) : (wait synced timeout).1 = false := by
  have hnone : (looks timeout).find? synced = none := by
    rw [List.find?_eq_none]
    intro look hm
    rw [h look hm]
    exact Bool.false_ne_true
  unfold wait
  rw [waitFrom_eq]
  unfold looks polls at hnone
  rw [hnone]

theorem mem_looksFrom {polls : Nat} {start look : Time.Span} :
    look ∈ looksFrom polls start ↔
      ∃ i ≤ polls, look = ⟨start.nanoseconds + i * pollInterval.nanoseconds⟩ := by
  induction polls generalizing start with
  | zero => simp [looksFrom]
  | succ polls ih =>
    rw [looksFrom, List.mem_cons, ih]
    constructor
    · rintro (rfl | ⟨i, hi, rfl⟩)
      · exact ⟨0, Nat.zero_le _, by simp⟩
      · refine ⟨i + 1, Nat.succ_le_succ hi, ?_⟩
        rw [Nat.succ_mul, Nat.add_assoc, Nat.add_comm pollInterval.nanoseconds]
    · rintro ⟨i, hi, rfl⟩
      cases i with
      | zero => simp
      | succ i =>
        refine .inr ⟨i, Nat.le_of_succ_le_succ hi, ?_⟩
        rw [Nat.succ_mul, Nat.add_assoc, Nat.add_comm pollInterval.nanoseconds]

/-- **The looks are a whole number of intervals after the start**, and no earlier look is at or after
the timeout. -/
theorem mem_looks {timeout look : Time.Span} :
    look ∈ looks timeout ↔ ∃ i, look = ⟨i * pollInterval.nanoseconds⟩ ∧
      ∀ j < i, j * pollInterval.nanoseconds < timeout.nanoseconds := by
  have hpos : 0 < pollInterval.nanoseconds := by decide
  have hle : ∀ i, i ≤ polls timeout ↔
      ∀ j < i, j * pollInterval.nanoseconds < timeout.nanoseconds := by
    intro i
    rw [polls, Nat.le_div_iff_mul_le hpos]
    constructor
    · intro h j hj
      have hj' : (j + 1) * pollInterval.nanoseconds ≤ i * pollInterval.nanoseconds :=
        Nat.mul_le_mul_right _ hj
      rw [Nat.succ_mul] at hj'
      omega
    · intro h
      cases i with
      | zero => simp
      | succ i =>
        have hi := h i (Nat.lt_succ_self i)
        rw [Nat.succ_mul]
        omega
  unfold looks
  rw [mem_looksFrom]
  simp only [Nat.zero_add]
  constructor
  · rintro ⟨i, hi, h⟩
    exact ⟨i, h, (hle i).1 hi⟩
  · rintro ⟨i, h, hi⟩
    exact ⟨i, (hle i).2 hi, h⟩

/-! ## 4. A request -/

variable {σ : Type}

/-- Whether a request is about the configuration of webhooks. -/
def AboutConfigurations (request : Request) : Prop :=
  request.resource.group = "admissionregistration.k8s.io" ∧
    (request.resource.resource = "mutatingwebhookconfigurations" ∨
      request.resource.resource = "validatingwebhookconfigurations")

instance (request : Request) : Decidable (AboutConfigurations request) :=
  inferInstanceAs (Decidable (_ ∧ _))

theorem handles_all (operation : Operation) : handles operation = true := by
  cases operation <;> decide

theorem await_eq (plugin : Plugin σ) (request : Request) :
    plugin.await request =
      if AboutConfigurations request then none
      else some (wait (fun now => (plugin.source now).synced) plugin.readyTimeout) := by
  have hexempt : isExempt request = true ↔ AboutConfigurations request := by
    simp [isExempt, AboutConfigurations]
  unfold await
  rw [handles_all]
  by_cases h : AboutConfigurations request
  · simp [h, hexempt.2 h]
  · have hnot : isExempt request = false := by
      rw [← Bool.not_eq_true, hexempt]
      exact h
    simp [h, hnot]

/-- **The choice of webhooks is made as a whole.**  A request about the configuration of webhooks goes
to no webhook, whatever is known of them.  Any other is refused if no look finds the webhooks known.
Otherwise, with the webhooks of the first look that does: if some webhook cannot be decided on, the
error of the first such is the answer, and nothing has been called or recorded; if all can, the
dispatch gets exactly the calls of those that apply, in their order.  A webhook cannot be decided on in
three ways: an unknown kind counts before the selectors, and a selector that errs counts only if the
rules name the request and the other selector does not say no. -/
theorem handle_all_or_nothing (plugin : Plugin σ) (request : Request) (tally : Tally) (world : σ) :
    let passed : Dispatched σ := ⟨.ok (), request, tally, [], world⟩
    let choice (hook : Webhook) := hook.selectFor request plugin.registry plugin.namespaces
    let call? (hook : Webhook) := hook.call? request plugin.registry plugin.namespaces
    (AboutConfigurations request → plugin.handle request tally world = passed) ∧
    (¬ AboutConfigurations request →
      ((∀ look ∈ looks plugin.readyTimeout, (plugin.source look).synced = false) →
        ∃ e, e.code = 403 ∧
          plugin.handle request tally world = { passed with verdict := .error e }) ∧
      ∀ now, (looks plugin.readyTimeout).find? (fun look => (plugin.source look).synced) = some now →
        (∀ earlier hook later e, (plugin.source now).webhooks = earlier ++ hook :: later →
          (∀ h ∈ earlier, ∃ chosen, choice h = .ok chosen) → choice hook = .error e →
            plugin.handle request tally world = { passed with verdict := .error e }) ∧
        ((∀ hook ∈ (plugin.source now).webhooks, ∃ chosen, choice hook = .ok chosen) →
          ∃ invocations, invocations = (plugin.source now).webhooks.filterMap call? ∧
            invocations.map (·.webhook) =
              (plugin.source now).webhooks.filter (fun hook => (call? hook).isSome) ∧
            plugin.handle request tally world =
              if invocations = [] then passed
              else plugin.dispatch request tally invocations world)) ∧
    ∀ hook e, choice hook = .error e ↔
      hook.SelectionFault request plugin.registry plugin.namespaces e := by
  intro passed choice call?
  have hawait := plugin.await_eq request
  refine ⟨fun habout => ?_, fun habout => ⟨fun hlooks => ?_, fun now hnow => ⟨?_, ?_⟩⟩,
    fun hook e => Webhook.selectFor_eq_error⟩
  · unfold handle
    rw [hawait, if_pos habout]
  · have hwait := wait_of_unsynced hlooks
    refine ⟨.forbidden request.resource.groupResource.text request.name
      "not yet ready to handle request", rfl, ?_⟩
    unfold handle
    rw [hawait, if_neg habout]
    generalize wait (fun now => (plugin.source now).synced) plugin.readyTimeout = waited at hwait
    obtain ⟨found, time⟩ := waited
    obtain rfl : found = false := hwait
    rfl
  · intro earlier hook later e hhooks hearlier hhook
    have hselect : select (plugin.source now).webhooks request plugin.registry plugin.namespaces =
        .error e := select_eq_error.2 ⟨earlier, hook, later, hhooks, hearlier, hhook⟩
    unfold handle
    rw [hawait, if_neg habout, wait_of_find hnow]
    dsimp only
    rw [hselect]
  · intro hall
    refine ⟨_, rfl, webhooks_of_chosen _ request plugin.registry plugin.namespaces, ?_⟩
    have hselect := select_of_decided hall
    unfold handle
    rw [hawait, if_neg habout, wait_of_find hnow]
    dsimp only
    rw [hselect]
    show _ = if (plugin.source now).webhooks.filterMap
      (·.call? request plugin.registry plugin.namespaces) = [] then _ else _
    generalize (plugin.source now).webhooks.filterMap
      (·.call? request plugin.registry plugin.namespaces) = invocations
    cases invocations with
    | nil => rw [if_pos rfl]
    | cons invocation rest => rw [if_neg (List.cons_ne_nil _ _)]

/-! ### a source that is late by less than an interval -/

/-- A source whose webhooks are known after 260 milliseconds; there are none. -/
def lateSource (now : Time.Span) : Snapshot :=
  { Snapshot.initial with
    synced := (Time.Span.ofMilliseconds 260).nanoseconds ≤ now.nanoseconds }

/-- A request for a pod. -/
def podRequest : Request where
  uid := "req-uid"
  kind := ⟨"", "v1", "Pod"⟩
  resource := ⟨"", "v1", "pods"⟩
  operation := .create

/-- **Not known within the timeout, and still not refused**: with a timeout of 250 milliseconds the last
look is at 300, and finds webhooks known that were not until 260. -/
theorem late_source_admits :
    ∃ plugin : Plugin Unit, ¬ AboutConfigurations podRequest ∧
      (∀ now : Time.Span, now.nanoseconds ≤ plugin.readyTimeout.nanoseconds →
        (plugin.source now).synced = false) ∧
      (plugin.handle podRequest ⟨.empty, {}, []⟩ ()).verdict = .ok () := by
  refine ⟨{
    source := lateSource
    namespaces := fun _ => none
    registry := .empty
    readyTimeout := .ofMilliseconds 250
    dispatch := fun request tally _ world => ⟨.ok (), request, tally, [], world⟩ }, ?_, ?_, ?_⟩
  · decide
  · intro now hnow
    have hnow : now.nanoseconds ≤ 250 * 1000000 := hnow
    show decide (260 * 1000000 ≤ now.nanoseconds) = false
    rw [decide_eq_false_iff_not]
    omega
  · decide

end Plugin

end Admission
