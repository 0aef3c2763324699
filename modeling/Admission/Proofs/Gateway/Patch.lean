import Admission.Proofs.Gateway.Answer
import Admission.Proofs.Object.Posted

/-!
# What the patch of the gateway does to the object that was posted

The patch in an answer is taken between two objects as they are written here, and is applied to the
object as it was posted.  An object that was posted without metadata is written with them, and a patch
that puts something into them finds no place for it.  If the posted object has a place for all that
changes in what is written of it, the patch makes of it a value that is read as the admitted object.
-/

namespace Admission.Gateway

theorem exists_of_patch {σ : Type} {types : TypeMeta} {request : Request} {after : Dispatched σ}
    {bytes : Json} (h : responseField? "patch" (answerOf types request after) = some bytes) :
    ∃ submitted admitted, after.verdict = .ok () ∧ request.object = some submitted ∧
      after.request.object = some admitted ∧
      bytes = patchJson (Json.diff submitted.toJson admitted.toJson) := by
  rw [responseField?_answerOf] at h
  obtain ⟨patch, hpatch, rfl⟩ :=
    Option.map_eq_some_iff.1 (show (patch? request after).map patchJson = some bytes from h)
  unfold patch? at hpatch
  split at hpatch
  · rename_i hok
    unfold patchBetween at hpatch
    split at hpatch
    · rename_i submitted admitted hsubmitted hadmitted
      refine ⟨submitted, admitted, hok, hsubmitted, hadmitted, ?_⟩
      split at hpatch
      · cases hpatch
      · cases hpatch
        rfl
    · cases hpatch
  · cases hpatch

variable {σ : Type}

/-- **The patch in an answer takes the object that was posted to the admitted one**, if the posted object
has a place for all that changes in what is written of it, and no kind is left among the other fields of
the admitted one. -/
theorem patch_takes_posted (caller : Caller σ) (scheduler : ValidatingDispatch.Scheduler)
    (registry : EquivalenceRegistry) (namespaces : NamespaceLister) (readyTimeout : Time.Span)
    (mutating validating : Time.Span → Snapshot) {text : String} {body raw : Json}
    {types : TypeMeta} {request : Request} (hread : Json.read? text = some body)
    (hrequest : Inbound.ofJson body = .ok ⟨types, some request⟩)
    (hraw : (body.field? "request").bind (·.field? "object") = some raw) (metrics : Metrics)
    (world : σ) :
    let gateway := reaching caller scheduler registry namespaces readyTimeout mutating validating
    let after := gateway.through .mutate request metrics world
    (∀ submitted admitted, request.object = some submitted →
      after.request.object = some admitted →
      Object.hasPlaces raw submitted.metadata admitted.metadata = true ∧
        admitted.data.get? "kind" = none) →
    ∀ bytes, responseField? "patch" (gateway.handle .mutate body metrics world).review =
      some bytes →
    ∃ patch result decoded admitted, bytes = patchJson patch ∧ patch.apply raw = .ok result ∧
      Object.ofJson result = .ok decoded ∧ after.request.object = some admitted ∧
      decoded.Same admitted := by
  intro gateway after hplaces bytes hbytes
  rw [gateway.review_of_request .mutate hrequest] at hbytes
  obtain ⟨submitted, admitted, -, hsubmitted, hadmitted, rfl⟩ := exists_of_patch hbytes
  have hbody := Json.proper_of_read? hread
  have hproper : raw.Proper := by
    obtain ⟨value, hvalue, hobject⟩ := Option.bind_eq_some_iff.1 hraw
    exact (hbody.field? hvalue).field? hobject
  have hafter : after.request.Legible :=
    (Plugin.object_of_mutating (Scheme.keepsLegible_relabel registry)
      (Inbound.legible_of_ofJson hbody hrequest)).1
  -- the posted object is no null, so it is the one that was submitted
  have hdecoded : Object.ofJson raw = .ok submitted := by
    have horNull := Inbound.object_of_ofJson hrequest hraw
    rw [hsubmitted] at horNull
    cases raw with
    | obj fields =>
      obtain ⟨o, ho, heq⟩ := bind_eq_ok.1 horNull
      cases heq
      exact ho
    | _ => cases horNull
  obtain ⟨hplace, hkind⟩ := hplaces submitted admitted hsubmitted hadmitted
  obtain ⟨result, decoded, htakes, hresult, hsame⟩ :=
    Object.takes_posted hproper hdecoded hplace (hafter admitted hadmitted) hkind
  exact ⟨_, result, decoded, admitted, rfl, htakes.applyFrom 0, hresult, hadmitted, hsame⟩

/-! ### a pod that a webhook labels -/

open MutatingDispatch (patching namedPod podCreation)

/-- What a pod without labels becomes. -/
theorem patch_takes_named_pod : ∃ patch result decoded admitted,
    responseField? "patch"
      ((patchingWith oneLabel).handle .mutate (posted namedPod.toJson) {} ()).review =
        some (patchJson patch) ∧
    patch.apply namedPod.toJson = .ok result ∧ Object.ofJson result = .ok decoded ∧
    ((patchingWith oneLabel).through .mutate podCreation {} ()).request.object = some admitted ∧
    decoded.Same admitted := by
  have hpatch : responseField? "patch"
      ((patchingWith oneLabel).handle .mutate (posted namedPod.toJson) {} ()).review =
        some (patchJson [.add ["metadata", "labels"] (.obj [("a", .str "b")])]) := by
    decide +kernel
  have hadmitted : ((patchingWith oneLabel).through .mutate podCreation {} ()).request.object =
      some { namedPod with
        metadata := { name := some "web", labels := some (Dict.ofFields [("a", "b")]) } } := by
    decide +kernel
  have hread : Json.read? (posted namedPod.toJson).write = some (posted namedPod.toJson) := by
    decide +kernel
  have hrequest : Inbound.ofJson (posted namedPod.toJson) =
      .ok ⟨⟨Review.version, Review.kindName⟩, some podCreation⟩ := by decide +kernel
  have hraw : ((posted namedPod.toJson).field? "request").bind (·.field? "object") =
      some namedPod.toJson := by decide +kernel
  obtain ⟨patch, result, decoded, admitted, hbytes, h⟩ := patch_takes_posted (patching oneLabel)
    ValidatingDispatch.promptFirst .empty (fun _ => none) ⟨0⟩ (fun _ => ⟨[patcher], true, 1⟩)
    (fun _ => .initial) hread hrequest hraw {} ()
    (fun submitted admitted hs ha => by
      obtain rfl := Option.some.inj hs
      obtain rfl := Option.some.inj (hadmitted.symm.trans ha)
      decide +kernel) _ hpatch
  exact ⟨patch, result, decoded, admitted, hpatch.trans (congrArg some hbytes), h⟩

/-- A pod without metadata. -/
def barePod : Json := .obj [("apiVersion", .str "v1"), ("kind", .str "Pod")]

/-- Its labels are added to metadata that it does not have. -/
theorem patch_of_bare_pod_fails :
    let review := ((patchingWith oneLabel).handle .mutate (posted barePod) {} ()).review
    responseField? "allowed" review = some (.bool true) ∧
    ∃ patch, responseField? "patch" review = some (patchJson patch) ∧
      patch.apply barePod = .error ⟨0, ["metadata", "labels"], .invalidPath⟩ := by
  refine ⟨by decide +kernel, [.add ["metadata", "labels"] (.obj [("a", .str "b")])], ?_, ?_⟩
  · decide +kernel
  · decide +kernel

end Gateway

end Admission
