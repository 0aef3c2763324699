import Admission.Settings.Basic
import Mathlib.Data.List.Induction
import Mathlib.Data.List.Nodup
import Mathlib.Data.String.Basic

/-!
# When the register says what was registered

A resource has one identity in the register, that of its latest registration for whatever
subresource, while the members of an identity are kept subresource by subresource.  So the
equivalents of a resource for a subresource are the resources registered with it exactly as long as
no later registration, for any subresource, has moved it to another identity (`exact_iff_lastUnder`),
and the register holds an equivalence if and only if every resource keeps one identity
(`equivalence_iff_oneIdentity`).
-/

namespace Admission

/-! ## 1. The order of resources -/

namespace GroupVersionResource

theorem before_iff {a b : GroupVersionResource} :
    a.before b = true ↔ a.group < b.group ∨ a.group = b.group ∧
      (a.version < b.version ∨ a.version = b.version ∧ a.resource < b.resource) := by
  simp [before]

theorem before_trans {a b c : GroupVersionResource} (hab : a.before b = true)
    (hbc : b.before c = true) : a.before c = true := by
  rw [before_iff] at hab hbc ⊢
  rcases hab with hab | ⟨hg, hab | ⟨hv, hab⟩⟩ <;> rcases hbc with hbc | ⟨hg', hbc | ⟨hv', hbc⟩⟩
  · exact .inl (hab.trans hbc)
  · exact .inl (hg' ▸ hab)
  · exact .inl (hg' ▸ hab)
  · exact .inl (hg ▸ hbc)
  · exact .inr ⟨hg.trans hg', .inl (hab.trans hbc)⟩
  · exact .inr ⟨hg.trans hg', .inl (hv' ▸ hab)⟩
  · exact .inl (hg ▸ hbc)
  · exact .inr ⟨hg.trans hg', .inl (hv ▸ hbc)⟩
  · exact .inr ⟨hg.trans hg', .inr ⟨hv.trans hv', hab.trans hbc⟩⟩

theorem before_total {a b : GroupVersionResource} (hab : a.before b = false) (hne : a ≠ b) :
    b.before a = true := by
  have h : ¬ (a.before b = true) := by simp [hab]
  rw [before_iff] at h ⊢
  simp only [not_or, not_and, not_lt] at h
  obtain ⟨hg, h⟩ := h
  rcases hg.lt_or_eq with hg | hg
  · exact .inl hg
  · obtain ⟨hv, h⟩ := h hg.symm
    rcases hv.lt_or_eq with hv | hv
    · exact .inr ⟨hg, .inl hv⟩
    · rcases (h hv.symm).lt_or_eq with hr | hr
      · exact .inr ⟨hg, .inr ⟨hv, hr⟩⟩
      · exact absurd (by obtain ⟨_, _, _⟩ := a; obtain ⟨_, _, _⟩ := b; simp_all) hne

end GroupVersionResource

namespace EquivalenceRegistry

/-! ## 2. Members -/

theorem mem_insertResource {resource r : GroupVersionResource} {list : List GroupVersionResource} :
    r ∈ insertResource resource list ↔ r = resource ∨ r ∈ list := by
  induction list with
  | nil => simp [insertResource]
  | cons first rest ih =>
    unfold insertResource
    split
    · simp
    · split
      · rename_i h
        subst h
        simp
      · simp only [List.mem_cons, ih]
        tauto

theorem pairwise_insertResource {resource : GroupVersionResource}
    {list : List GroupVersionResource} (h : list.Pairwise (·.before · = true)) :
    (insertResource resource list).Pairwise (·.before · = true) := by
  induction list with
  | nil => simp [insertResource]
  | cons first rest ih =>
    obtain ⟨hfirst, hrest⟩ := List.pairwise_cons.1 h
    unfold insertResource
    split
    · rename_i hb
      refine List.pairwise_cons.2 ⟨fun r hr => ?_, h⟩
      rcases List.mem_cons.1 hr with rfl | hr
      · exact hb
      · exact GroupVersionResource.before_trans hb (hfirst r hr)
    · split
      · exact h
      · rename_i hb hne
        refine List.pairwise_cons.2 ⟨fun r hr => ?_, ih hrest⟩
        rcases mem_insertResource.1 hr with rfl | hr
        · exact GroupVersionResource.before_total (by simpa using hb) hne
        · exact hfirst r hr

theorem mem_members {registry : EquivalenceRegistry} {identity subresource : String}
    {resource : GroupVersionResource} :
    resource ∈ registry.members identity subresource ↔
      ∃ r ∈ registry.registrations,
        r.resource = resource ∧ r.subresource = subresource ∧ r.identity = identity := by
  have key : ∀ rs : List Registration,
      resource ∈ rs.foldr (fun r list => insertResource r.resource list) [] ↔
        ∃ r ∈ rs, r.resource = resource := by
    intro rs
    induction rs with
    | nil => simp
    | cons r rs ih => simp [mem_insertResource, ih, eq_comm]
  unfold members
  rw [key]
  simp only [List.mem_filter, decide_eq_true_eq]
  constructor
  · rintro ⟨r, ⟨hm, hi, hs⟩, hr⟩
    exact ⟨r, hm, hr, hs, hi⟩
  · rintro ⟨r, hm, hr, hs, hi⟩
    exact ⟨r, ⟨hm, hi, hs⟩, hr⟩

theorem pairwise_equivalents (registry : EquivalenceRegistry) (resource : GroupVersionResource)
    (subresource : String) :
    (registry.equivalents resource subresource).Pairwise (·.before · = true) := by
  unfold equivalents
  split
  · unfold members
    generalize registry.registrations.filter _ = rs
    induction rs with
    | nil => exact .nil
    | cons r rs ih => exact pairwise_insertResource ih
  · exact .nil

/-! ## 3. Identities -/

theorem identity?_register (registry : EquivalenceRegistry) (r : Registration)
    (resource : GroupVersionResource) :
    (registry.register r).identity? resource =
      if r.resource = resource then some r.identity else registry.identity? resource := by
  unfold identity? register
  rw [List.find?_cons]
  by_cases h : r.resource = resource <;> simp [h]

theorem members_register (registry : EquivalenceRegistry) (r : Registration)
    (identity subresource : String) :
    (registry.register r).members identity subresource =
      if r.identity = identity ∧ r.subresource = subresource then
        insertResource r.resource (registry.members identity subresource)
      else registry.members identity subresource := by
  unfold members register
  rw [List.filter_cons]
  by_cases h : r.identity = identity ∧ r.subresource = subresource <;> simp [h]

/-- **What a registration does to other subresources.**  Nothing, unless it moves the very resource
that is asked about to another identity. -/
theorem equivalents_register_of_ne (registry : EquivalenceRegistry) {r : Registration}
    {resource : GroupVersionResource} {subresource : String} (h : r.subresource ≠ subresource) :
    (registry.register r).equivalents resource subresource =
      if r.resource = resource then registry.members r.identity subresource
      else registry.equivalents resource subresource := by
  unfold equivalents
  rw [identity?_register]
  by_cases hr : r.resource = resource
  · simp [hr, members_register, h]
  · simp [hr, members_register, h]

/-- The register of some registrations, in the order they are made. -/
def ofRegistrations (rs : List Registration) : EquivalenceRegistry := rs.foldl register .empty

theorem registrations_ofRegistrations (rs : List Registration) :
    (ofRegistrations rs).registrations = rs.reverse := by
  induction rs using List.reverseRecOn with
  | nil => rfl
  | append_singleton rs r ih =>
    rw [ofRegistrations, List.foldl_concat, List.reverse_concat, ← ih]
    rfl

/-- The latest registration of a resource, for whatever subresource, is under an identity. -/
def LastUnder (rs : List Registration) (resource : GroupVersionResource) (identity : String) :
    Prop :=
  ∃ earlier last later, rs = earlier ++ last :: later ∧ last.resource = resource ∧
    last.identity = identity ∧ ∀ r ∈ later, r.resource ≠ resource

theorem identity?_ofRegistrations {rs : List Registration} {resource : GroupVersionResource}
    {identity : String} :
    (ofRegistrations rs).identity? resource = some identity ↔ LastUnder rs resource identity := by
  unfold identity?
  rw [registrations_ofRegistrations, Option.map_eq_some_iff]
  simp only [List.find?_eq_some_iff_append, decide_eq_true_eq, Bool.not_eq_true',
    decide_eq_false_iff_not]
  constructor
  · rintro ⟨last, ⟨hl, later, earlier, h, hlater⟩, hi⟩
    refine ⟨earlier.reverse, last, later.reverse, ?_, hl, hi, by simpa using hlater⟩
    simpa using congrArg List.reverse h
  · rintro ⟨earlier, last, later, rfl, hl, hi, hlater⟩
    exact ⟨last, ⟨hl, later.reverse, earlier.reverse, by simp, by simpa using hlater⟩, hi⟩

theorem exists_lastUnder {rs : List Registration} {r : Registration} (h : r ∈ rs) :
    ∃ last ∈ rs, last.resource = r.resource ∧ LastUnder rs r.resource last.identity := by
  have hsome : ((ofRegistrations rs).identity? r.resource).isSome := by
    rw [identity?, registrations_ofRegistrations, Option.isSome_map, List.find?_isSome]
    exact ⟨r, by simpa using h, by simp⟩
  obtain ⟨identity, hi⟩ := Option.isSome_iff_exists.1 hsome
  obtain ⟨earlier, last, later, hrs, hl, -, hlater⟩ := identity?_ofRegistrations.1 hi
  exact ⟨last, by simp [hrs], hl, earlier, last, later, hrs, hl, rfl, hlater⟩

/-- **The equivalents of a resource** are the resources registered for the subresource under the
identity that it was registered under last. -/
theorem mem_equivalents {rs : List Registration} {resource other : GroupVersionResource}
    {subresource : String} :
    other ∈ (ofRegistrations rs).equivalents resource subresource ↔
      ∃ r ∈ rs, r.resource = other ∧ r.subresource = subresource ∧
        LastUnder rs resource r.identity := by
  unfold equivalents
  cases h : (ofRegistrations rs).identity? resource with
  | none =>
    simp only [List.not_mem_nil, false_iff, not_exists, not_and]
    intro r _ _ _ hlast
    rw [← identity?_ofRegistrations, h] at hlast
    cases hlast
  | some identity =>
    simp only [mem_members, registrations_ofRegistrations, List.mem_reverse, ← identity?_ofRegistrations, h,
      Option.some.injEq, eq_comm]

/-! ## 4. When the equivalents are those registered together -/

/-- Where a registration is for. -/
def place (r : Registration) : GroupVersionResource × String := (r.resource, r.subresource)

/-- The equivalents of a registered resource are the resources registered with it. -/
def Exact (registry : EquivalenceRegistry) (rs : List Registration) (r : Registration) : Prop :=
  ∀ other, other ∈ registry.equivalents r.resource r.subresource ↔
    ∃ r' ∈ rs, r'.resource = other ∧ r'.subresource = r.subresource ∧ r'.identity = r.identity

/-- Every resource is registered under one identity only. -/
def OneIdentity (rs : List Registration) : Prop :=
  ∀ r ∈ rs, ∀ r' ∈ rs, r.resource = r'.resource → r.identity = r'.identity

/-- **The register holds an equivalence.** -/
structure Equivalence (registry : EquivalenceRegistry) (rs : List Registration) : Prop where
  exact : ∀ r ∈ rs, registry.Exact rs r
  symmetric : ∀ r ∈ rs, ∀ other ∈ registry.equivalents r.resource r.subresource,
    r.resource ∈ registry.equivalents other r.subresource
  transitive : ∀ r ∈ rs, ∀ other ∈ registry.equivalents r.resource r.subresource,
    ∀ third ∈ registry.equivalents other r.subresource,
      third ∈ registry.equivalents r.resource r.subresource

section Exact

variable {rs : List Registration}

/-- **Exactly the resources that have not been moved have the equivalents they were registered
with.** -/
theorem exact_iff_lastUnder (h : (rs.map place).Nodup) {r : Registration} (hr : r ∈ rs) :
    (ofRegistrations rs).Exact rs r ↔ LastUnder rs r.resource r.identity := by
  constructor
  · intro hexact
    -- the resource is registered with itself, so it is among its equivalents
    obtain ⟨r', hm, he, hs, hlast⟩ := mem_equivalents.1 ((hexact r.resource).2 ⟨r, hr, rfl, rfl, rfl⟩)
    obtain rfl := List.inj_on_of_nodup_map h hm hr (by simp [place, he, hs])
    exact hlast
  · intro hlast other
    rw [mem_equivalents]
    simp only [← identity?_ofRegistrations] at hlast ⊢
    simp only [hlast, Option.some.injEq, eq_comm]

theorem lastUnder_of_oneIdentity (h : OneIdentity rs) {r : Registration} (hr : r ∈ rs) :
    LastUnder rs r.resource r.identity := by
  obtain ⟨last, hm, he, hlast⟩ := exists_lastUnder hr
  rwa [h last hm r hr he] at hlast

/-- **The register holds an equivalence if and only if every resource keeps one identity.** -/
theorem equivalence_iff_oneIdentity (h : (rs.map place).Nodup) :
    (ofRegistrations rs).Equivalence rs ↔ OneIdentity rs := by
  constructor
  · intro heq r hr r' hr' he
    have hlast := (exact_iff_lastUnder h hr).1 (heq.exact r hr)
    have hlast' := (exact_iff_lastUnder h hr').1 (heq.exact r' hr')
    rw [← identity?_ofRegistrations] at hlast hlast'
    rw [he, hlast'] at hlast
    exact (Option.some.inj hlast).symm
  · intro hone
    have hexact : ∀ r ∈ rs, (ofRegistrations rs).Exact rs r := fun r hr =>
      (exact_iff_lastUnder h hr).2 (lastUnder_of_oneIdentity hone hr)
    refine ⟨hexact, ?_, ?_⟩
    · intro r hr other ho
      obtain ⟨r', hm, rfl, hs, hi⟩ := (hexact r hr other).1 ho
      rw [← hs]
      exact (hexact r' hm r.resource).2 ⟨r, hr, rfl, hs.symm, hi.symm⟩
    · intro r hr other ho third ht
      obtain ⟨r', hm, rfl, hs, hi⟩ := (hexact r hr other).1 ho
      rw [← hs] at ht
      obtain ⟨r'', hm'', he, hs'', hi''⟩ := (hexact r' hm third).1 ht
      exact (hexact r hr third).2 ⟨r'', hm'', he, hs''.trans hs, hi''.trans hi⟩

end Exact

/-! ## 5. Registers as they are made -/

/-- One way of registering: under an identity, or under the name of the resource. -/
inductive Entry where
  | named (r : Registration)
  | own (resource : GroupVersionResource) (subresource : String) (kind : GroupVersionKind)
  deriving DecidableEq

def enter (registry : EquivalenceRegistry) : Entry → EquivalenceRegistry
  | .named r => registry.register r
  | .own resource subresource kind => registry.registerKindFor resource subresource kind

/-- The registration that is made. -/
def Entry.registration : Entry → Registration
  | .named r => r
  | .own resource subresource kind =>
    ⟨s!"{resource.resource}.{resource.group}", resource, subresource, kind⟩

theorem foldl_enter (entries : List Entry) :
    entries.foldl enter empty = ofRegistrations (entries.map Entry.registration) := by
  rw [ofRegistrations, List.foldl_map]
  congr 1
  funext registry entry
  cases entry <;> rfl

/-- Registering everything under the names of the resources gives every resource one identity. -/
theorem oneIdentity_of_own {entries : List Entry} (h : ∀ r, .named r ∉ entries) :
    OneIdentity (entries.map Entry.registration) := by
  intro r hr r' hr' he
  obtain ⟨entry, hm, rfl⟩ := List.mem_map.1 hr
  obtain ⟨entry', hm', rfl⟩ := List.mem_map.1 hr'
  cases entry with
  | named r => exact absurd hm (h r)
  | own resource subresource kind =>
    cases entry' with
    | named r => exact absurd hm' (h r)
    | own resource' subresource' kind' =>
      obtain rfl : resource = resource' := he
      rfl

/-- **When the register says what was registered.**  Where every place is registered at most once, a
registered resource has the equivalents it was registered with, in the order of their names, if and
only if its latest registration, for whatever subresource, is under the same identity; and the
register holds an equivalence if and only if every resource keeps one identity, as it does if
everything is registered under the names of the resources.  Then a further registration for another
subresource that keeps to this changes nothing. -/
theorem equivalents_exact_iff_last_identity (entries : List Entry)
    (hplaces : ((entries.map Entry.registration).map place).Nodup) :
    let rs := entries.map Entry.registration
    let registry := entries.foldl enter empty
    (∀ r ∈ rs, registry.Exact rs r ↔ LastUnder rs r.resource r.identity) ∧
    (∀ r ∈ rs, (registry.equivalents r.resource r.subresource).Pairwise (·.before · = true)) ∧
    (registry.Equivalence rs ↔ OneIdentity rs) ∧
    ((∀ r, .named r ∉ entries) → OneIdentity rs) ∧
    (∀ entry : Entry, OneIdentity (rs ++ [entry.registration]) → ∀ r ∈ rs,
      entry.registration.subresource ≠ r.subresource →
      (registry.enter entry).equivalents r.resource r.subresource =
        registry.equivalents r.resource r.subresource) := by
  intro rs registry
  have hregistry : registry = ofRegistrations rs := foldl_enter entries
  refine ⟨fun r hr => ?_, fun r _ => pairwise_equivalents _ _ _, ?_, oneIdentity_of_own, ?_⟩
  · rw [hregistry]
    exact exact_iff_lastUnder hplaces hr
  · rw [hregistry]
    exact equivalence_iff_oneIdentity hplaces
  · intro entry hone r hr hs
    have hone' : OneIdentity rs := fun a ha b hb => hone a (by simp [ha]) b (by simp [hb])
    have henter : registry.enter entry = registry.register entry.registration := by
      cases entry <;> rfl
    rw [henter, equivalents_register_of_ne registry hs, hregistry]
    split
    · rename_i he
      have hi := hone entry.registration (by simp) r (by simp [hr]) he
      have hlast := identity?_ofRegistrations.2 (lastUnder_of_oneIdentity hone' hr)
      rw [hi, equivalents, hlast]
    · rfl

/-- Deployments in two versions under one identity, and the scale of one of them under another. -/
def deploymentsAndScale : List Entry :=
  [.named ⟨"deployments", ⟨"apps", "v1", "deployments"⟩, "", ⟨"apps", "v1", "Deployment"⟩⟩,
    .named ⟨"deployments", ⟨"extensions", "v1beta1", "deployments"⟩, "",
      ⟨"extensions", "v1beta1", "Deployment"⟩⟩,
    .named ⟨"scales", ⟨"apps", "v1", "deployments"⟩, "scale", ⟨"autoscaling", "v1", "Scale"⟩⟩]

theorem equivalents_exact_iff_last_identity_deployments :
    ((deploymentsAndScale.map Entry.registration).map place).Nodup ∧
      ∀ r ∈ deploymentsAndScale.map Entry.registration,
        (deploymentsAndScale.foldl enter empty).Exact (deploymentsAndScale.map Entry.registration) r ↔
          LastUnder (deploymentsAndScale.map Entry.registration) r.resource r.identity :=
  ⟨by decide, (equivalents_exact_iff_last_identity deploymentsAndScale (by decide)).1⟩

/-- Registering the scale has taken all equivalents from one of the deployments, but it is still among
those of the other. -/
theorem equivalents_lost_to_scale :
    ((deploymentsAndScale.map Entry.registration).map place).Nodup ∧
    (deploymentsAndScale.foldl enter empty).equivalents ⟨"apps", "v1", "deployments"⟩ "" = [] ∧
    (deploymentsAndScale.foldl enter empty).equivalents
        ⟨"extensions", "v1beta1", "deployments"⟩ "" =
      [⟨"apps", "v1", "deployments"⟩, ⟨"extensions", "v1beta1", "deployments"⟩] ∧
    ¬ ∀ r ∈ deploymentsAndScale.map Entry.registration,
      (deploymentsAndScale.foldl enter empty).Exact
        (deploymentsAndScale.map Entry.registration) r := by
  have hlost : (deploymentsAndScale.foldl enter empty).equivalents
      ⟨"apps", "v1", "deployments"⟩ "" = [] := by decide
  refine ⟨by decide, hlost, by decide, fun h => ?_⟩
  have hmem := (h ⟨"deployments", ⟨"apps", "v1", "deployments"⟩, "", ⟨"apps", "v1", "Deployment"⟩⟩
    (by decide) ⟨"apps", "v1", "deployments"⟩).2 ⟨_, by decide, rfl, rfl, rfl⟩
  rw [hlost] at hmem
  cases hmem

end EquivalenceRegistry

namespace Settings

theorem groupIdentity_inj {i j : Nat} (h : groupIdentity i = groupIdentity j) : i = j := by
  unfold groupIdentity at h
  have hdigits := congrArg String.toList h
  simp only [Nat.toString_eq_repr, String.toList_append, Nat.toList_repr,
    List.append_cancel_left_eq] at hdigits
  have hvalue := congrArg (fun digits => Nat.ofDigitChars 10 digits 0) hdigits
  simpa only [Nat.ofDigitChars_ten_toDigits] using hvalue

theorem mem_registrationsFrom {groups : List (List EquivalentResource)} {index : Nat}
    {r : Registration} :
    r ∈ registrationsFrom index groups ↔ ∃ (i : Nat) (group : List EquivalentResource),
      groups[i]? = some group ∧ ∃ member ∈ group, r = member.registration (groupIdentity (index + i)) := by
  induction groups generalizing index with
  | nil => simp [registrationsFrom]
  | cons first rest ih =>
    rw [registrationsFrom, List.mem_append, List.mem_map, ih]
    constructor
    · rintro (⟨member, hm, rfl⟩ | ⟨i, group, hi, member, hm, rfl⟩)
      · exact ⟨0, first, rfl, member, hm, rfl⟩
      · exact ⟨i + 1, group, hi, member, hm, by rw [Nat.add_right_comm, Nat.add_assoc]⟩
    · rintro ⟨i, group, hi, member, hm, rfl⟩
      cases i with
      | zero =>
        obtain rfl : first = group := by simpa using hi
        exact .inl ⟨member, hm, rfl⟩
      | succ i =>
        exact .inr ⟨i, group, by simpa using hi, member, hm, by
          rw [Nat.add_right_comm, Nat.add_assoc]⟩

/-- **A register made of groups holds an equivalence if and only if no resource is in two groups**, be
it for different subresources. -/
theorem registry_equivalence_iff (s : Settings)
    (h : ((registrationsFrom 0 s.equivalentResources).map EquivalenceRegistry.place).Nodup) :
    s.registry.Equivalence (registrationsFrom 0 s.equivalentResources) ↔
      ∀ (i j : Nat) (group group' : List EquivalentResource), s.equivalentResources[i]? = some group →
        s.equivalentResources[j]? = some group' →
        ∀ member ∈ group, ∀ member' ∈ group', member.gvr = member'.gvr → i = j := by
  refine (EquivalenceRegistry.equivalence_iff_oneIdentity h).trans ?_
  constructor
  · intro hone i j group group' hi hj member hm member' hm' he
    have := hone _ (mem_registrationsFrom.2 ⟨i, group, hi, member, hm, rfl⟩) _
      (mem_registrationsFrom.2 ⟨j, group', hj, member', hm', rfl⟩) he
    simpa using groupIdentity_inj this
  · intro hgroups r hr r' hr' he
    obtain ⟨i, group, hi, member, hm, rfl⟩ := mem_registrationsFrom.1 hr
    obtain ⟨j, group', hj, member', hm', rfl⟩ := mem_registrationsFrom.1 hr'
    rw [show i = j from hgroups i j group group' hi hj member hm member' hm' he]
    rfl

end Settings

end Admission
