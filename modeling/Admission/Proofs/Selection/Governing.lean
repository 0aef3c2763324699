import Admission.Proofs.Selection

/-!
# Whose labels decide on a request

A namespace selector is held against the labels of one namespace: the one the request is in, or the one it is
about (`Request.governing`).  A request outside all namespaces is held against none, and a namespace that is
created or updated is held against the labels it is to have, so these two kinds of requests do not look any
namespace up.  Everything else that decides on a webhook does not know of namespaces at all, so two listers
that agree on the one name cannot be told apart by the webhooks they choose, nor by the error if there is no
choice (`Webhook.selectFor_congr`).

A namespace that is looked up and not there is the one source of an answer that something was not found.  That
is heard only if the rules name the request and the object selector does not say no, since that is when the
namespace selector is heard (`Webhook.SelectionFault`).
-/

namespace Admission

/-! ## 1. The one name -/

namespace Request

/-- The name of the namespace that the request is in, or else that it is about. -/
def governing (request : Request) : String :=
  if request.resource.isNamespaces ∧ request.namespaceName = "" then request.name
  else request.namespaceName

/-- The request is outside all namespaces and not about one. -/
def IsOutside (request : Request) : Prop :=
  request.namespaceName = "" ∧ request.resource.isNamespaces = false

/-- A namespace itself is created or updated. -/
def WritesNamespace (request : Request) : Prop :=
  request.resource.isNamespaces = true ∧ request.subresource = "" ∧
    (request.operation = .create ∨ request.operation = .update)

/-- The labels that the object is to have. -/
def submittedLabels (request : Request) : Labels := (request.object.map Object.labels).getD ∅

end Request

namespace Webhook

variable {hook : Webhook} {request : Request} {registry : EquivalenceRegistry}
  {namespaces other : NamespaceLister} {e : StatusError}

/-- A namespace that is written counts with the labels it is to have. -/
theorem governingLabels_of_writes (h : request.WritesNamespace) :
    governingLabels request namespaces = .ok request.submittedLabels := by
  unfold governingLabels
  exact if_pos h

theorem governingLabels_of_not_writes (h : ¬ request.WritesNamespace) :
    governingLabels request namespaces =
      match namespaces request.governing with
      | some labels => .ok labels
      | none => .error (.notFound "namespaces" request.governing) := by
  unfold governingLabels
  exact if_neg h

theorem namespaceAccepts_of_outside (h : request.IsOutside) :
    hook.namespaceAccepts request namespaces = .ok true := by
  unfold namespaceAccepts
  rw [if_pos ⟨h.1, by rw [h.2]; rfl⟩]

theorem namespaceAccepts_of_inside (h : ¬ request.IsOutside) :
    hook.namespaceAccepts request namespaces =
      match effective? hook.namespaceSelector with
      | none => .ok true
      | some selector => governingLabels request namespaces >>= selectLabels selector := by
  unfold namespaceAccepts
  exact if_neg fun houtside => h ⟨houtside.1, by simpa using houtside.2⟩

theorem namespaceAccepts_congr (h : request.IsOutside ∨ request.WritesNamespace ∨
    namespaces request.governing = other request.governing) :
    hook.namespaceAccepts request namespaces = hook.namespaceAccepts request other := by
  by_cases houtside : request.IsOutside
  · rw [namespaceAccepts_of_outside houtside, namespaceAccepts_of_outside houtside]
  · have hlabels : governingLabels request namespaces = governingLabels request other := by
      by_cases hwrites : request.WritesNamespace
      · rw [governingLabels_of_writes hwrites, governingLabels_of_writes hwrites]
      · have hsame := (h.resolve_left houtside).resolve_left hwrites
        rw [governingLabels_of_not_writes hwrites, governingLabels_of_not_writes hwrites, hsame]
    rw [namespaceAccepts_of_inside houtside, namespaceAccepts_of_inside houtside, hlabels]

theorem selectFor_congr
    (h : hook.namespaceAccepts request namespaces = hook.namespaceAccepts request other) :
    hook.selectFor request registry namespaces = hook.selectFor request registry other := by
  unfold selectFor
  rw [h]

/-! ## 2. What was not found -/

/-- **The namespace that a webhook asks for is not there**: the rules name the request, the object selector
does not say no, and the namespace selector has conditions and is to be held against the labels of a namespace
that is unknown. -/
structure LacksNamespace (hook : Webhook) (request : Request) (registry : EquivalenceRegistry)
    (namespaces : NamespaceLister) : Prop where
  selector : ∃ s, hook.namespaceSelector = some s ∧ s.isEmpty = false
  named : ∃ invocation, hook.byRules request registry = .ok (some invocation)
  byObject : hook.objectAccepts request ≠ .ok false
  inside : ¬ request.IsOutside
  readOnly : ¬ request.WritesNamespace
  unknown : namespaces request.governing = none

theorem code_of_selectLabels {selector : LabelSelector} {labels : Labels}
    (h : selectLabels selector labels = .error e) : e.code = 500 := by
  unfold selectLabels at h
  split at h
  · cases h
  · cases h
    rfl

theorem code_of_objectAccepts (h : hook.objectAccepts request = .error e) : e.code = 500 := by
  have hobject : ∀ {selector : LabelSelector} {object : Option Object} {e : StatusError},
      selectObject selector object = .error e → e.code = 500 := by
    intro selector object e h
    unfold selectObject at h
    split at h
    · exact code_of_selectLabels h
    · cases h
  unfold objectAccepts at h
  split at h
  · cases h
  · rcases bind_eq_error.1 h with h | ⟨b, -, h⟩
    · exact hobject h
    · cases b with
      | true => cases h
      | false => exact hobject h

theorem effective?_eq_some {selector? : Option LabelSelector} {selector : LabelSelector} :
    effective? selector? = some selector ↔ selector? = some selector ∧ selector.isEmpty = false := by
  unfold effective?
  rw [Option.filter_eq_some_iff, Bool.not_eq_true']

/-- The namespace selector does not find something only if it looks for a namespace that is unknown. -/
theorem namespaceAccepts_notFound :
    hook.namespaceAccepts request namespaces = .error e ∧ e.code = 404 ↔
      (∃ s, hook.namespaceSelector = some s ∧ s.isEmpty = false) ∧ ¬ request.IsOutside ∧
        ¬ request.WritesNamespace ∧ namespaces request.governing = none ∧
        e = .notFound "namespaces" request.governing := by
  constructor
  · rintro ⟨h, hcode⟩
    by_cases houtside : request.IsOutside
    · rw [namespaceAccepts_of_outside houtside] at h
      cases h
    · rw [namespaceAccepts_of_inside houtside] at h
      split at h
      · cases h
      · rename_i selector hselector
        refine ⟨⟨selector, effective?_eq_some.1 hselector⟩, houtside, ?_⟩
        rcases bind_eq_error.1 h with h | ⟨labels, -, h⟩
        · by_cases hwrites : request.WritesNamespace
          · rw [governingLabels_of_writes hwrites] at h
            cases h
          · rw [governingLabels_of_not_writes hwrites] at h
            split at h
            · cases h
            · rename_i hunknown
              cases h
              exact ⟨hwrites, hunknown, rfl⟩
        · rw [code_of_selectLabels h] at hcode
          cases hcode
  · rintro ⟨⟨selector, hselector⟩, hinside, hreads, hunknown, rfl⟩
    rw [namespaceAccepts_of_inside hinside, effective?_eq_some.2 hselector]
    refine ⟨bind_eq_error.2 (.inl ?_), rfl⟩
    rw [governingLabels_of_not_writes hreads, hunknown]

/-- **Something is not found exactly if it is the namespace that the webhook asks for.** -/
theorem selectFor_notFound :
    hook.selectFor request registry namespaces = .error e ∧ e.code = 404 ↔
      hook.LacksNamespace request registry namespaces ∧
        e = .notFound "namespaces" request.governing := by
  rw [selectFor_eq_error]
  constructor
  · rintro ⟨hfault, hcode⟩
    cases hfault with
    | unknownKind named failed byNamespace byObject => cases hcode
    | namespaceSelector named failed byObject =>
      obtain ⟨hselector, hinside, hreads, hunknown, he⟩ := namespaceAccepts_notFound.1 ⟨failed, hcode⟩
      exact ⟨⟨hselector, ⟨_, named⟩, byObject, hinside, hreads, hunknown⟩, he⟩
    | objectSelector named byNamespace failed =>
      rw [code_of_objectAccepts failed] at hcode
      cases hcode
  · rintro ⟨hlacks, rfl⟩
    obtain ⟨invocation, hnamed⟩ := hlacks.named
    have hfailed : hook.namespaceAccepts request namespaces =
        .error (.notFound "namespaces" request.governing) :=
      (namespaceAccepts_notFound.2
        ⟨hlacks.selector, hlacks.inside, hlacks.readOnly, hlacks.unknown, rfl⟩).1
    exact ⟨.namespaceSelector hnamed hfailed hlacks.byObject, rfl⟩

end Webhook

/-! ## 3. All webhooks -/

namespace Plugin

variable {webhooks : List Webhook} {request : Request} {registry : EquivalenceRegistry}
  {namespaces other : NamespaceLister}

theorem select_congr (h : request.IsOutside ∨ request.WritesNamespace ∨
    namespaces request.governing = other request.governing) :
    select webhooks request registry namespaces = select webhooks request registry other := by
  have hall : (fun hook : Webhook => hook.selectFor request registry namespaces) =
      fun hook => hook.selectFor request registry other :=
    funext fun hook => hook.selectFor_congr (hook.namespaceAccepts_congr h)
  unfold select
  rw [hall]

theorem handle_congr {σ : Type} {plugin : Plugin σ} {tally : Tally} {world : σ}
    (h : ∀ webhooks, select webhooks request plugin.registry other =
      select webhooks request plugin.registry plugin.namespaces) :
    { plugin with namespaces := other }.handle request tally world =
      plugin.handle request tally world := by
  unfold handle
  simp only [h]
  rfl

/-- **One namespace governs a request.**  Listers that agree on the one name choose the same webhooks, or have
the same error.  All listers do for requests outside all namespaces, and for the writing of a namespace, which
is held against the labels that the object is to have.  That is so for the choice, and so for the whole step.
Something is not found only if a webhook asks for the one name and the lister does not know it. -/
theorem governed_by_one_namespace (webhooks : List Webhook) (request : Request)
    (registry : EquivalenceRegistry) :
    (∀ namespaces other : NamespaceLister, namespaces request.governing = other request.governing →
      select webhooks request registry namespaces = select webhooks request registry other) ∧
    (request.IsOutside ∨ request.WritesNamespace → ∀ namespaces other : NamespaceLister,
      select webhooks request registry namespaces = select webhooks request registry other) ∧
    (request.WritesNamespace → ∀ namespaces : NamespaceLister,
      Webhook.governingLabels request namespaces = .ok request.submittedLabels) ∧
    (∀ {σ : Type} (plugin : Plugin σ) (other : NamespaceLister) (tally : Tally) (world : σ),
      request.IsOutside ∨ request.WritesNamespace ∨
          plugin.namespaces request.governing = other request.governing →
        { plugin with namespaces := other }.handle request tally world =
          plugin.handle request tally world) ∧
    ∀ (namespaces : NamespaceLister) (e : StatusError),
      select webhooks request registry namespaces = .error e → e.code = 404 →
        e = .notFound "namespaces" request.governing ∧
          ∃ hook ∈ webhooks, hook.LacksNamespace request registry namespaces := by
  refine ⟨fun namespaces other h => select_congr (.inr (.inr h)), fun h namespaces other =>
    select_congr (or_assoc.1 (.inl h)), fun h namespaces => Webhook.governingLabels_of_writes h,
    fun plugin other tally world h => handle_congr fun webhooks => (select_congr h).symm,
    fun namespaces e hselect hcode => ?_⟩
  obtain ⟨earlier, hook, later, rfl, -, hhook⟩ := select_eq_error.1 hselect
  obtain ⟨hlacks, he⟩ := Webhook.selectFor_notFound.1 ⟨hhook, hcode⟩
  exact ⟨he, hook, by simp, hlacks⟩

/-! ### a pod in a namespace -/

/-- A webhook for whatever is in productive namespaces. -/
def productiveHook : Webhook :=
  { Webhook.bare "guard.example.com" .validating with
    rules := [⟨["*"], ["*"], ["*"], ["*"], none⟩]
    namespaceSelector := some { matchExpressions := some [⟨"env", "In", some ["prod"]⟩] } }

/-- A request for a pod in a namespace. -/
def podInTeam : Request := { podRequest with namespaceName := "team" }

/-- The namespaces of one lister: the pod's, which is productive. -/
def fewNamespaces : NamespaceLister := fun name =>
  if name = "team" then some (.ofFields [("env", "prod")]) else none

/-- Those of another: the pod's alike, and all others. -/
def manyNamespaces : NamespaceLister := fun name =>
  if name = "team" then some (.ofFields [("env", "prod")]) else some ∅

theorem governed_by_one_namespace_team :
    select [productiveHook] podInTeam .empty fewNamespaces =
        .ok [⟨productiveHook, podInTeam.resource, "", podInTeam.kind⟩] ∧
      select [productiveHook] podInTeam .empty manyNamespaces =
        select [productiveHook] podInTeam .empty fewNamespaces ∧
      select [productiveHook] podInTeam .empty (fun _ => none) = .error (.notFound "namespaces" "team") ∧
      productiveHook.LacksNamespace podInTeam .empty fun _ => none := by
  obtain ⟨hsame, -, -, -, hmissing⟩ := governed_by_one_namespace [productiveHook] podInTeam .empty
  have hlost : select [productiveHook] podInTeam .empty (fun _ => none) =
      .error (.notFound "namespaces" "team") := by decide
  obtain ⟨-, hook, hmem, hlacks⟩ := hmissing _ _ hlost rfl
  rw [List.mem_singleton.1 hmem] at hlacks
  exact ⟨by decide, hsame _ _ rfl, hlost, hlacks⟩

end Plugin

end Admission
