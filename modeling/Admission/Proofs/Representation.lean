import Admission.Proofs.Equivalence
import Admission.Proofs.Selection
import Mathlib.Data.List.TakeWhile

/-!
# As what a webhook sees a request

A webhook sees a request as what it is if a rule names that.  Otherwise it sees it as an equivalent resource
that a rule names, and there may be several rules and several resources: the first rule that names any of
them decides, and of those it names the first in the order of their names (`Webhook.Least`).  What the
resource is called is looked up only then, so a resource without a kind does not make way for another one:
it ends the request.
-/

namespace Admission

/-! ## 1. What a rule names -/

namespace Rule

/-- A list of names has the name or stands for all. -/
def Lists (names : List String) (name : String) : Prop := wildcard ∈ names ∨ name ∈ names

theorem covers_iff {names : List String} {name : String} :
    covers names name = true ↔ Lists names name := by
  simp only [covers, Lists, List.any_eq_true, decide_eq_true_eq, Bool.or_eq_true]
  constructor
  · rintro ⟨_, hm, rfl | rfl⟩
    · exact .inl hm
    · exact .inr hm
  · rintro (hm | hm)
    · exact ⟨_, hm, .inl rfl⟩
    · exact ⟨_, hm, .inr rfl⟩

/-- An entry of the resources is cut at its first slash; without one it has no subresource. -/
inductive Cut : (entry resource subresource : String) → Prop where
  | whole {resource : String} (h : '/' ∉ resource.toList) : Cut resource resource ""
  | parts {resource : String} (h : '/' ∉ resource.toList) (subresource : String) :
      Cut (resource ++ "/" ++ subresource) resource subresource

theorem Cut.splitEntry_eq {entry resource subresource : String} (h : Cut entry resource subresource) :
    splitEntry entry = (resource, subresource) := by
  have hclean : ∀ text : String, '/' ∉ text.toList → ∀ c ∈ text.toList, decide (c ≠ '/') = true :=
    fun text h c hc => decide_eq_true fun heq => h (heq ▸ hc)
  simp only [splitEntry]
  cases h with
  | whole h =>
    rw [List.takeWhile_eq_self_iff.2 (hclean _ h), List.dropWhile_eq_nil_iff.2 (hclean _ h),
      String.ofList_toList]
    rfl
  | parts h subresource =>
    have hslash : "/".toList = ['/'] := rfl
    rw [String.toList_append, String.toList_append, List.append_assoc,
      List.takeWhile_append_of_pos (hclean _ h), List.dropWhile_append_of_pos (hclean _ h), hslash]
    simp

theorem cut_splitEntry (entry : String) : Cut entry (splitEntry entry).1 (splitEntry entry).2 := by
  obtain hnone | ⟨before, after, hsplit, hclean⟩ : '/' ∉ entry.toList ∨
      ∃ before after, entry.toList = before ++ '/' :: after ∧ '/' ∉ before := by
    by_cases hm : '/' ∈ entry.toList
    · obtain ⟨before, after, hsplit, hclean⟩ := List.eq_append_cons_of_mem hm
      exact .inr ⟨before, after, hsplit, hclean⟩
    · exact .inl hm
  · have hcut := Cut.whole hnone
    rw [hcut.splitEntry_eq]
    exact hcut
  · have hslashless : '/' ∉ (String.ofList before).toList := by simpa using hclean
    have hcut := Cut.parts hslashless (String.ofList after)
    have hentry : String.ofList before ++ "/" ++ String.ofList after = entry := by
      apply String.toList_injective
      simp [hsplit]
    rw [hentry] at hcut
    rw [hcut.splitEntry_eq]
    exact hcut

/-- **What a rule names**: its lists have the operation, the group, the version and, in one entry, resource
and subresource, and its scope is that of the request. -/
structure Names (rule : Rule) (input : RuleInput) : Prop where
  operation : Lists rule.operations input.operation.text
  group : Lists rule.apiGroups input.resource.group
  version : Lists rule.apiVersions input.resource.version
  resource : ∃ entry ∈ rule.resources, ∃ resource subresource, Cut entry resource subresource ∧
    (resource = wildcard ∨ resource = input.resource.resource) ∧
    (subresource = wildcard ∨ subresource = input.subresource)
  /-- Namespaces themselves are of the cluster, as is what is in none. -/
  scope : rule.scope = none ∨ rule.scope = some wildcard ∨
    (rule.scope = some "Namespaced" ∧ input.resource.isNamespaces = false ∧ input.namespaceName ≠ "") ∨
    (rule.scope = some "Cluster" ∧ (input.resource.isNamespaces = true ∨ input.namespaceName = ""))

theorem scopeCovers_iff {rule : Rule} {input : RuleInput} :
    rule.scopeCovers input = true ↔ rule.scope = none ∨ rule.scope = some wildcard ∨
      (rule.scope = some "Namespaced" ∧ input.resource.isNamespaces = false ∧
        input.namespaceName ≠ "") ∨
      (rule.scope = some "Cluster" ∧
        (input.resource.isNamespaces = true ∨ input.namespaceName = "")) := by
  unfold scopeCovers
  cases hscope : rule.scope with
  | none => simp
  | some scope =>
    by_cases hall : scope = wildcard
    · simp [hall]
    · by_cases hnamespaced : scope = "Namespaced"
      · subst hnamespaced
        simp [hall]
      · by_cases hcluster : scope = "Cluster"
        · subst hcluster
          simp [hall]
        · simp [hall, hnamespaced, hcluster]

theorem covered_iff {rule : Rule} {input : RuleInput} : rule.covered input = true ↔ rule.Names input := by
  have hentry : rule.resources.any (entryCovers input) = true ↔
      ∃ entry ∈ rule.resources, ∃ resource subresource, Cut entry resource subresource ∧
        (resource = wildcard ∨ resource = input.resource.resource) ∧
        (subresource = wildcard ∨ subresource = input.subresource) := by
    simp only [List.any_eq_true, entryCovers, Bool.and_eq_true, Bool.or_eq_true, decide_eq_true_eq]
    refine exists_congr fun entry => and_congr_right fun _ => ?_
    constructor
    · exact fun h => ⟨_, _, cut_splitEntry entry, h⟩
    · rintro ⟨resource, subresource, hcut, h⟩
      rw [hcut.splitEntry_eq]
      exact h
  unfold covered
  rw [Bool.and_eq_true, Bool.and_eq_true, Bool.and_eq_true, Bool.and_eq_true, scopeCovers_iff, covers_iff,
    covers_iff, covers_iff, hentry]
  constructor
  · rintro ⟨⟨⟨⟨hscope, hoperation⟩, hgroup⟩, hversion⟩, hresource⟩
    exact ⟨hoperation, hgroup, hversion, hresource, hscope⟩
  · rintro ⟨hoperation, hgroup, hversion, hresource, hscope⟩
    exact ⟨⟨⟨⟨hscope, hoperation⟩, hgroup⟩, hversion⟩, hresource⟩

end Rule

/-! ## 2. The equivalent resource that decides -/

theorem GroupVersionResource.before_irrefl (a : GroupVersionResource) : a.before a = false := by
  simp [GroupVersionResource.before]

namespace Webhook

/-- A rule, by its place, names an equivalent of the request's resource, which is not that itself. -/
structure Candidate (hook : Webhook) (request : Request) (registry : EquivalenceRegistry) (place : Nat)
    (resource : GroupVersionResource) : Prop where
  equivalent : resource ∈ registry.equivalents request.resource request.subresource
  other : resource ≠ request.resource
  named : ∃ rule, hook.rules[place]? = some rule ∧ rule.Names (ruleInput request resource)

/-- **The candidate that decides**: before all others by the rule, and for one rule by the resource. -/
structure Least (hook : Webhook) (request : Request) (registry : EquivalenceRegistry) (place : Nat)
    (resource : GroupVersionResource) : Prop where
  candidate : hook.Candidate request registry place resource
  first : ∀ place' other, hook.Candidate request registry place' other →
    place < place' ∨ place = place' ∧ (resource = other ∨ resource.before other = true)

variable {hook : Webhook} {request : Request} {registry : EquivalenceRegistry} {place place' : Nat}
  {resource other : GroupVersionResource}

theorem Least.unique (h : hook.Least request registry place resource)
    (h' : hook.Least request registry place' other) : resource = other := by
  rcases h.first place' other h'.candidate with hlt | ⟨rfl, heq | hbefore⟩
  · rcases h'.first place resource h.candidate with hlt' | ⟨rfl, -⟩
    · exact absurd (hlt.trans hlt') (Nat.lt_irrefl _)
    · exact absurd hlt (Nat.lt_irrefl _)
  · exact heq
  · rcases h'.first place resource h.candidate with hlt' | ⟨-, heq' | hbefore'⟩
    · exact absurd hlt' (Nat.lt_irrefl _)
    · exact heq'.symm
    · have hloop := GroupVersionResource.before_trans hbefore hbefore'
      rw [GroupVersionResource.before_irrefl] at hloop
      cases hloop

theorem find?_least {resources : List GroupVersionResource}
    (hsorted : resources.Pairwise (·.before · = true)) {p : GroupVersionResource → Bool}
    (h : resources.find? p = some resource) :
    ∀ other ∈ resources, p other = true → resource = other ∨ resource.before other = true := by
  obtain ⟨-, earlier, later, rfl, hearlier⟩ := List.find?_eq_some_iff_append.1 h
  intro other hm hp
  rcases List.mem_append.1 hm with hm | hm
  · simpa [hp] using hearlier other hm
  · rcases List.mem_cons.1 hm with rfl | hm
    · exact .inl rfl
    · obtain ⟨-, hlater, -⟩ := List.pairwise_append.1 hsorted
      exact .inr ((List.pairwise_cons.1 hlater).1 other hm)

theorem find?_equivalents_eq_none {rule : Rule} (hplace : hook.rules[place]? = some rule) :
    ((registry.equivalents request.resource request.subresource).filter (· ≠ request.resource)).find?
        (fun resource => rule.covered (ruleInput request resource)) = none ↔
      ∀ resource, ¬ hook.Candidate request registry place resource := by
  rw [List.find?_eq_none]
  constructor
  · rintro h resource ⟨hequivalent, hother, rule', hrule', hnames⟩
    obtain rfl := Option.some.inj (hplace.symm.trans hrule')
    refine h resource (List.mem_filter.2 ⟨hequivalent, ?_⟩) (Rule.covered_iff.2 hnames)
    simpa using hother
  · intro h resource hm hcovered
    obtain ⟨hequivalent, hother⟩ := List.mem_filter.1 hm
    exact h resource ⟨hequivalent, by simpa using hother, rule, hplace, Rule.covered_iff.1 hcovered⟩

theorem namedEquivalent?_eq_none : hook.namedEquivalent? request registry = none ↔
    ∀ place resource, ¬ hook.Candidate request registry place resource := by
  unfold namedEquivalent?
  rw [List.findSome?_eq_none_iff]
  constructor
  · intro h place resource hcandidate
    obtain ⟨rule, hrule, -⟩ := hcandidate.named
    exact (find?_equivalents_eq_none hrule).1 (h rule (List.mem_of_getElem? hrule)) resource hcandidate
  · intro h rule hm
    obtain ⟨place, hplace⟩ := List.mem_iff_getElem?.1 hm
    exact (find?_equivalents_eq_none hplace).2 (h place)

theorem least_of_namedEquivalent? (h : hook.namedEquivalent? request registry = some resource) :
    ∃ place, hook.Least request registry place resource := by
  unfold namedEquivalent? at h
  obtain ⟨earlier, rule, later, hrules, hfound, hearlier⟩ := List.findSome?_eq_some_iff.1 h
  have hplace : hook.rules[earlier.length]? = some rule := by
    rw [hrules, List.getElem?_append_right le_rfl, Nat.sub_self, List.getElem?_cons_zero]
  have hcovered := List.find?_some hfound
  obtain ⟨hequivalent, hother⟩ := List.mem_filter.1 (List.mem_of_find?_eq_some hfound)
  refine ⟨earlier.length, ⟨hequivalent, by simpa using hother, rule, hplace,
    Rule.covered_iff.1 hcovered⟩, fun place' other hcandidate => ?_⟩
  obtain ⟨rule', hrule', hnames⟩ := hcandidate.named
  rcases Nat.lt_trichotomy place' earlier.length with hlt | rfl | hlt
  · -- an earlier rule found nothing
    have hmem : rule' ∈ earlier := by
      rw [hrules, List.getElem?_append_left hlt] at hrule'
      exact List.mem_of_getElem? hrule'
    exact absurd hcandidate ((find?_equivalents_eq_none hrule').1 (hearlier rule' hmem) other)
  · obtain rfl := Option.some.inj (hplace.symm.trans hrule')
    have hsorted := (registry.pairwise_equivalents request.resource request.subresource).filter
      (· ≠ request.resource)
    refine .inr ⟨rfl, find?_least hsorted hfound other (List.mem_filter.2 ⟨hcandidate.equivalent, ?_⟩)
      (Rule.covered_iff.2 hnames)⟩
    simpa using hcandidate.other
  · exact .inl hlt

theorem namedEquivalent?_eq_some : hook.namedEquivalent? request registry = some resource ↔
    ∃ place, hook.Least request registry place resource := by
  refine ⟨least_of_namedEquivalent?, ?_⟩
  rintro ⟨place, hleast⟩
  cases hnamed : hook.namedEquivalent? request registry with
  | none => exact absurd hleast.candidate (namedEquivalent?_eq_none.1 hnamed place resource)
  | some found =>
    obtain ⟨place', hfound⟩ := least_of_namedEquivalent? hnamed
    rw [hfound.unique hleast]

/-! ## 3. The call that is made -/

theorem selectFor_of_accepted {namespaces : NamespaceLister}
    (hn : hook.namespaceAccepts request namespaces = .ok true)
    (ho : hook.objectAccepts request = .ok true) :
    hook.selectFor request registry namespaces = hook.byRules request registry := by
  rw [selectFor_of_not_rejected (by simp [hn]) (by simp [ho]), hn, ho]
  cases hook.byRules request registry with
  | error e => rfl
  | ok named => cases named <;> rfl

theorem any_covered_iff {input : RuleInput} :
    hook.rules.any (·.covered input) = true ↔ ∃ rule ∈ hook.rules, rule.Names input := by
  simp only [List.any_eq_true, Rule.covered_iff]

/-- A webhook that takes equivalents, none of whose rules names the request's own resource. -/
theorem byRules_of_equivalent
    (hnot : ¬ ∃ rule ∈ hook.rules, rule.Names (ruleInput request request.resource))
    (hequivalent : hook.matchPolicy = .equivalent) : hook.byRules request registry =
      match hook.namedEquivalent? request registry with
      | none => .ok none
      | some resource =>
        match (registry.kind? resource request.subresource).filter (fun kind => !kind.isEmpty) with
        | some kind => .ok (some ⟨hook, resource, request.subresource, kind⟩)
        | none => .error (unknownKind resource) := by
  unfold byRules
  rw [if_neg (fun h => hnot (any_covered_iff.1 h)), if_neg (by simp [hequivalent])]
  rfl

theorem isEmpty_iff {kind : GroupVersionKind} : kind.isEmpty = true ↔ kind = ⟨"", "", ""⟩ := by
  cases kind
  simp [GroupVersionKind.isEmpty, and_assoc]

/-- **A webhook sees the request as what it is, or as the least equivalent that a rule names.**  Both
selectors accept.  If a rule names the request's own resource, the webhook sees it with that resource and
that kind, whatever else there is.  If none does, a webhook that wants exact matches is not called; one that
takes equivalents is not called if no rule names one, and otherwise there is a least candidate, by the rule
first and by the resource second, and the webhook sees the request as that, with the kind that the register
has for it.  A least candidate without a kind ends the request with an internal error that says so. -/
theorem sees_own_or_least_equivalent {namespaces : NamespaceLister}
    (hn : hook.namespaceAccepts request namespaces = .ok true)
    (ho : hook.objectAccepts request = .ok true) :
    ((∃ rule ∈ hook.rules, rule.Names (ruleInput request request.resource)) →
      hook.selectFor request registry namespaces =
        .ok (some ⟨hook, request.resource, request.subresource, request.kind⟩)) ∧
    ((¬ ∃ rule ∈ hook.rules, rule.Names (ruleInput request request.resource)) →
      (hook.matchPolicy = .exact → hook.selectFor request registry namespaces = .ok none) ∧
      (hook.matchPolicy = .equivalent →
        ((¬ ∃ place resource, hook.Candidate request registry place resource) →
          hook.selectFor request registry namespaces = .ok none) ∧
        ((∃ place resource, hook.Candidate request registry place resource) →
          ∃ place resource, hook.Least request registry place resource) ∧
        ∀ place resource, hook.Least request registry place resource →
          (∀ kind, registry.kind? resource request.subresource = some kind → kind ≠ ⟨"", "", ""⟩ →
            hook.selectFor request registry namespaces =
              .ok (some ⟨hook, resource, request.subresource, kind⟩)) ∧
          ((∀ kind, registry.kind? resource request.subresource = some kind → kind = ⟨"", "", ""⟩) →
            hook.selectFor request registry namespaces = .error (unknownKind resource)))) ∧
    ∀ resource, (unknownKind resource).code = 500 ∧ (unknownKind resource).text =
      s!"Internal error occurred: unable to convert to {resource.text}: unknown kind" := by
  rw [selectFor_of_accepted hn ho]
  refine ⟨fun hown => ?_, fun hnot => ⟨fun hexact => ?_, fun hequivalent => ⟨?_, ?_, ?_⟩⟩, ?_⟩
  · unfold byRules
    rw [if_pos (any_covered_iff.2 hown)]
  · unfold byRules
    rw [if_neg (fun h => hnot (any_covered_iff.1 h)), if_pos hexact]
  · intro hnone
    have hnamed := namedEquivalent?_eq_none.2 fun place resource h => hnone ⟨place, resource, h⟩
    rw [byRules_of_equivalent hnot hequivalent, hnamed]
  · rintro ⟨place, resource, hcandidate⟩
    cases hnamed : hook.namedEquivalent? request registry with
    | none => exact absurd hcandidate (namedEquivalent?_eq_none.1 hnamed place resource)
    | some found =>
      obtain ⟨first, hleast⟩ := least_of_namedEquivalent? hnamed
      exact ⟨first, found, hleast⟩
  · intro place resource hleast
    rw [byRules_of_equivalent hnot hequivalent, namedEquivalent?_eq_some.2 ⟨place, hleast⟩]
    refine ⟨fun kind hkind hnonempty => ?_, fun hnone => ?_⟩
    · have hfull : kind.isEmpty = false := by
        rw [← Bool.not_eq_true, isEmpty_iff]
        exact hnonempty
      have hfilter : (registry.kind? resource request.subresource).filter
          (fun kind => !kind.isEmpty) = some kind := by
        rw [hkind, Option.filter, hfull]
        rfl
      simp only [hfilter]
    · have hfilter : (registry.kind? resource request.subresource).filter
          (fun kind => !kind.isEmpty) = none := by
        refine Option.filter_eq_none_iff.2 fun kind hkind => ?_
        simpa using isEmpty_iff.2 (hnone kind hkind)
      simp only [hfilter]
  · exact fun resource => ⟨rfl, rfl⟩

/-! ### an earlier rule for a later resource -/

/-- A request for a deployment. -/
def deploymentRequest : Request where
  uid := "req-uid"
  kind := ⟨"apps", "v1", "Deployment"⟩
  resource := ⟨"apps", "v1", "deployments"⟩
  operation := .create
  namespaceName := "default"

/-- A rule for deployments of a group and a version. -/
def deploymentsOf (group version : String) : Rule :=
  ⟨["CREATE"], [group], [version], ["deployments"], none⟩

/-- A webhook whose earlier rule is for the later one of two equivalents. -/
def twoRules : Webhook :=
  { bare "hook" .validating with
    rules := [deploymentsOf "extensions" "v1beta1", deploymentsOf "apps" "v1beta1"] }

/-- Deployments in three versions, the last of them with a kind or without. -/
def deployments (kind : GroupVersionKind) : EquivalenceRegistry :=
  ⟨[⟨"deployments", ⟨"apps", "v1", "deployments"⟩, "", ⟨"apps", "v1", "Deployment"⟩⟩,
    ⟨"deployments", ⟨"apps", "v1beta1", "deployments"⟩, "", ⟨"apps", "v1beta1", "Deployment"⟩⟩,
    ⟨"deployments", ⟨"extensions", "v1beta1", "deployments"⟩, "", kind⟩]⟩

/-- The earlier rule decides; with a kind the webhook is called, and without one the request ends. -/
theorem sees_own_or_least_equivalent_deployments :
    twoRules.selectFor deploymentRequest (deployments ⟨"extensions", "v1beta1", "Deployment"⟩)
        (fun _ => none) =
      .ok (some ⟨twoRules, ⟨"extensions", "v1beta1", "deployments"⟩, "",
        ⟨"extensions", "v1beta1", "Deployment"⟩⟩) ∧
    twoRules.selectFor deploymentRequest (deployments ⟨"", "", ""⟩) (fun _ => none) =
      .error (unknownKind ⟨"extensions", "v1beta1", "deployments"⟩) := by
  have hown : ¬ ∃ rule ∈ twoRules.rules,
      rule.Names (ruleInput deploymentRequest deploymentRequest.resource) := fun h =>
    absurd (any_covered_iff.2 h) (by decide)
  have hn : twoRules.namespaceAccepts deploymentRequest (fun _ => none) = .ok true := by rfl
  have ho : twoRules.objectAccepts deploymentRequest = .ok true := by rfl
  constructor
  · have hnamed : twoRules.namedEquivalent? deploymentRequest
        (deployments ⟨"extensions", "v1beta1", "Deployment"⟩) =
          some ⟨"extensions", "v1beta1", "deployments"⟩ := by decide
    obtain ⟨place, hleast⟩ := namedEquivalent?_eq_some.1 hnamed
    obtain ⟨hcalled, -⟩ :=
      ((sees_own_or_least_equivalent hn ho).2.1 hown).2 rfl |>.2.2 place _ hleast
    exact hcalled _ (by decide) (by decide)
  · have hnamed : twoRules.namedEquivalent? deploymentRequest (deployments ⟨"", "", ""⟩) =
        some ⟨"extensions", "v1beta1", "deployments"⟩ := by decide
    obtain ⟨place, hleast⟩ := namedEquivalent?_eq_some.1 hnamed
    obtain ⟨-, hended⟩ :=
      ((sees_own_or_least_equivalent hn ho).2.1 hown).2 rfl |>.2.2 place _ hleast
    refine hended fun kind hkind => ?_
    have hempty : (deployments ⟨"", "", ""⟩).kind? ⟨"extensions", "v1beta1", "deployments"⟩ "" =
        some ⟨"", "", ""⟩ := by decide
    exact Option.some.inj (hkind.symm.trans hempty)

end Webhook

end Admission
