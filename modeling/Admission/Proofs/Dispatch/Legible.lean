import Admission.Proofs.Dispatch.Mutating
import Admission.Proofs.Json.Patch
import Admission.Proofs.Object

/-!
# Objects that were read stay so

What a webhook's patch makes of an object is read again, and conversion and defaults keep to objects as
they are read, so a request whose object was read is admitted with such an object
(`MutatingDispatch.legible_of_dispatch`).  For patches this rests on what they are read from; for
conversion and defaults it is a property of the scheme, which restating the kind and filling in nothing
have (`Scheme.keepsLegible_relabel`).
-/

namespace Admission

/-- Conversion and defaults keep to objects as they are read. -/
structure Scheme.KeepsLegible (scheme : Scheme) : Prop where
  convert : ∀ {object result : Object} {kind : GroupVersionKind}, object.Legible →
    scheme.convert object kind = .ok result → result.Legible
  applyDefaults : ∀ {object : Object}, object.Legible → (scheme.applyDefaults object).Legible

theorem Scheme.keepsLegible_relabel (registry : EquivalenceRegistry) :
    Scheme.KeepsLegible ⟨.relabel, id, registry⟩ where
  convert := by
    intro object result kind ho h
    rw [Converter.eq_withKind_of_relabel h]
    exact ⟨ho.metadata, ho.data, ho.withoutMetadata, ho.withoutVersion⟩
  applyDefaults ho := ho

/-- The object that may be there was read. -/
abbrev Request.Legible (request : Request) : Prop := ∀ object ∈ request.object, object.Legible

namespace Mutation

open Json (keeps_obj_iff)

/-! ## 1. patches -/

theorem proper_modifyMetadata {change : Fields Json → Fields Json}
    (hchange : ∀ metadata, (Json.obj metadata).Proper → (Json.obj (change metadata)).Proper)
    {document : Json} (h : document.Proper) : (modifyMetadata change document).Proper := by
  unfold modifyMetadata
  split
  · split
    · rename_i metadata hmeta
      exact h.insert "metadata" (hchange metadata (h.field hmeta))
    · exact h
  · exact h

theorem proper_fillMaps (keys : List String) {document : Json} (h : document.Proper) :
    (fillMaps keys document).Proper := by
  refine proper_modifyMetadata (fun metadata hm => ?_) h
  induction keys generalizing metadata with
  | nil => exact hm
  | cons key rest ih => exact ih _ (hm.insert key (.obj List.Pairwise.nil nofun))

theorem proper_pruneMaps (keys : List String) {document : Json} (h : document.Proper) :
    (pruneMaps keys document).Proper := by
  refine proper_modifyMetadata (fun metadata hm => ?_) h
  induction keys generalizing metadata with
  | nil => exact hm
  | cons key rest ih =>
    refine ih _ ?_
    dsimp only
    split
    · exact hm.update key none nofun
    · exact hm

theorem legible_of_patchObject {patch : Patch} {object result : Object} (hp : patch.Proper)
    (ho : object.Legible) (h : patchObject patch object = .ok result) : result.Legible := by
  obtain ⟨document, happly, hread⟩ := exists_of_patchObject h
  have hproper : document.Proper := Json.Proper.patch hp (proper_fillMaps _ ho.proper.toJson) happly
  exact Object.legible_of_ofJson (proper_pruneMaps _ hproper) hread

theorem proper_of_patchOf {response : ReviewResponse} {patch : Patch}
    (h : patchOf response = .ok patch) : patch.Proper := by
  unfold patchOf at h
  split at h
  · cases h
    exact fun operation hm => by cases hm
  · split at h
    · cases h
    · split at h
      · rename_i hread
        cases h
        exact Patch.proper_of_ofText hread
      · cases h

theorem proper_of_patch? {report : CallReport} {patch : Patch} (h : report.patch? = .ok patch) :
    patch.Proper := by
  unfold CallReport.patch? at h
  split at h
  · split at h
    · exact proper_of_patchOf h
    · cases h
      exact fun operation hm => by cases hm
  · cases h
    exact fun operation hm => by cases hm

/-! ## 2. the calls of a dispatch -/

section Calls

variable {scheme : Scheme} (hs : scheme.KeepsLegible)

include hs

theorem legible_of_reexpress {held kind : GroupVersionKind} {object result : Option Object}
    (ho : ∀ o ∈ object, o.Legible)
    (h : Versioned.reexpress scheme.convert held kind object = .ok result) :
    ∀ o ∈ result, o.Legible := by
  obtain ⟨-, rfl⟩ | ⟨-, rfl⟩ | ⟨before, after, rfl, hconvert, rfl⟩ := Versioned.reexpress_cases h
  · exact ho
  · exact fun o hm => absurd hm (Option.not_mem_none o)
  · intro o hm
    obtain rfl := Option.mem_some.1 hm
    exact hs.convert (ho before rfl) hconvert

theorem legible_of_conclude {hook : Webhook} {report : CallReport} {object result : Option Object}
    (ho : ∀ o ∈ object, o.Legible) (h : conclude scheme hook report object = .ok result) :
    ∀ o ∈ result, o.Legible := by
  obtain ⟨-, rfl⟩ | ⟨patch, before, after, hpatch, -, rfl, hafter, rfl⟩ := conclude_cases h
  · exact ho
  · intro o hm
    obtain rfl := Option.mem_some.1 hm
    exact hs.applyDefaults (legible_of_patchObject (proper_of_patch? hpatch) (ho before rfl) hafter)

theorem legible_of_objectIn {request : Request} {history : History} {kind : GroupVersionKind}
    {object : Option Object} (ho : request.Legible)
    (h : objectIn scheme request history kind = .ok object) : ∀ o ∈ object, o.Legible := by
  obtain ⟨held, hheld, h⟩ := bind_eq_ok.1 h
  have hlegible : ∀ o ∈ held.2, o.Legible := by
    refine foldlM_keeps (P := fun held => ∀ o ∈ held.2, o.Legible) (fun held call next hp hv => ?_)
      ho hheld
    obtain ⟨-, object, hre, hconclude⟩ := visit_eq_ok hv
    exact legible_of_conclude hs (legible_of_reexpress hs hp hre) hconclude
  exact legible_of_reexpress hs hlegible h

end Calls

end Mutation

/-! ## 3. a dispatch -/

namespace MutatingDispatch

variable {σ : Type} {scheme : Scheme} {request : Request}

/-- **A dispatch leaves an object that was read, of one that was.** -/
theorem legible_of_dispatch (hs : scheme.KeepsLegible) (ho : request.Legible) (caller : Caller σ)
    (tally : Tally) (invocations : List Invocation) (world : σ) :
    (dispatch caller scheme request tally invocations world).request.Legible := by
  obtain ⟨stop, run, hrun, hhalt⟩ := exists_halt caller scheme request tally invocations world
  cases hhalt.ending hrun with
  | unconvertible _ _ _ _ same => rw [same]; exact ho
  | aborted _ _ _ _ same => rw [same]; exact ho
  | untouched _ _ _ _ same => rw [same]; exact ho
  | changed _ _ left _ changed =>
    rw [changed]
    exact Mutation.legible_of_objectIn hs ho left
  | unreturnable _ _ _ _ _ same => rw [same]; exact ho

/-- A dispatch makes no object of nothing, and nothing of no object. -/
theorem isSome_of_dispatch (caller : Caller σ) (scheme : Scheme) (request : Request)
    (tally : Tally) (invocations : List Invocation) (world : σ) :
    (dispatch caller scheme request tally invocations world).request.object.isSome =
      request.object.isSome := by
  obtain ⟨stop, run, hrun, hhalt⟩ := exists_halt caller scheme request tally invocations world
  cases hhalt.ending hrun with
  | unconvertible _ _ _ _ same => rw [same]
  | aborted _ _ _ _ same => rw [same]
  | untouched _ _ _ _ same => rw [same]
  | changed _ _ left _ changed =>
    rw [changed]
    exact Mutation.isSome_of_objectIn left
  | unreturnable _ _ _ _ _ same => rw [same]

end MutatingDispatch

end Admission
