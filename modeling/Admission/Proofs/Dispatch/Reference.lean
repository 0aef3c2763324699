import Admission.Proofs.Dispatch.Call
import Admission.Proofs.Dispatch.Versioned
import Mathlib.Data.List.Induction

/-!
# What mutating webhooks make of an object

The reference that a mutating dispatch is measured by.  It knows nothing of the state between two
webhooks: the object that a webhook is to see is computed from the request and from the history, that
is the webhooks called before it and what came of the calls.  It goes from kind to kind as the
webhooks of the history do, and every patch is applied in the kind of the webhook that gave it.

The old object goes the same way without the patches.  When conversions compose, the way does not
matter, and the old object is that of the request in the kind asked for (`oldObjectIn_of_composes`).
-/

namespace Admission

/-! ## 1. What a call makes of the object -/

namespace CallReport

/-- The patch of a webhook that went well; empty if it gave none or was passed over. -/
def patch? (report : CallReport) : Except StatusError Patch :=
  match report.outcome with
  | .ok response => if response.allowed then Mutation.patchOf response else .ok []
  | .error _ => .ok []

/-- Whether the webhook went well and gave a patch that is not empty. -/
def patches (report : CallReport) : Bool :=
  match report.patch? with
  | .ok patch => patch ≠ []
  | .error _ => false

end CallReport

namespace Mutation

/-- The error that ends the request when a webhook patches an object that is not there. -/
def objectless (webhook : String) : StatusError :=
  .internal (s!"admission webhook \"{webhook}\" attempted to modify the object, " ++
    "which is not supported for this operation")

/-- **What a patch makes of an object.**  Defaults are filled in after the patch; an empty patch
leaves the object alone, and there must be an object for another one. -/
def amend (scheme : Scheme) (webhook : String) (patch : Patch) (object : Option Object) :
    Except StatusError (Option Object) :=
  if patch = [] then .ok object
  else
    match object with
    | none => .error (objectless webhook)
    | some object => do
      let object ← patchObject patch object
      return some (scheme.applyDefaults object)

/-- **What a call makes of the object**, or the error that ends the request. -/
def conclude (scheme : Scheme) (hook : Webhook) (report : CallReport) (object : Option Object) :
    Except StatusError (Option Object) :=
  match report.abort? hook with
  | some e => .error e
  | none => do
    let patch ← report.patch?
    amend scheme hook.name patch object

section Conclude

variable {scheme : Scheme} {hook : Webhook} {report : CallReport}

theorem abort?_of_conclude {object result : Option Object}
    (h : conclude scheme hook report object = .ok result) : report.abort? hook = none := by
  unfold conclude at h
  cases ha : report.abort? hook with
  | none => rfl
  | some e => rw [ha] at h; cases h

/-- **A call leaves the object alone, or patches it** and fills in defaults. -/
theorem conclude_cases {object result : Option Object}
    (h : conclude scheme hook report object = .ok result) :
    (report.patch? = .ok [] ∧ result = object) ∨
      ∃ patch before after, report.patch? = .ok patch ∧ patch ≠ [] ∧ object = some before ∧
        patchObject patch before = .ok after ∧ result = some (scheme.applyDefaults after) := by
  have ha := abort?_of_conclude h
  unfold conclude at h
  rw [ha] at h
  obtain ⟨patch, hpatch, h⟩ := bind_eq_ok.1 h
  unfold amend at h
  split at h
  · rename_i hp
    cases h
    exact .inl ⟨hp ▸ hpatch, rfl⟩
  · rename_i hp
    cases object with
    | none => cases h
    | some before =>
      obtain ⟨after, hafter, h⟩ := bind_eq_ok.1 h
      cases h
      exact .inr ⟨patch, before, after, hpatch, hp, rfl, hafter, rfl⟩

theorem exists_of_patchObject {patch : Patch} {object result : Object}
    (h : patchObject patch object = .ok result) : ∃ document,
      patch.apply (fillMaps (absentMaps object.toJson) object.toJson) = .ok document ∧
      Object.ofJson (pruneMaps (absentMaps object.toJson) document) = .ok result := by
  unfold patchObject at h
  dsimp only at h
  split at h
  · cases h
  · rename_i document happly
    split at h <;> cases h
    exact ⟨document, happly, ‹_›⟩

/-- A patch that is not empty is that of an answer that allows the request. -/
theorem exists_response_of_patch? {patch : Patch} (h : report.patch? = .ok patch) (hp : patch ≠ []) :
    ∃ response, report.outcome = .ok response ∧ response.allowed = true ∧
      patchOf response = .ok patch := by
  unfold CallReport.patch? at h
  cases ho : report.outcome with
  | error failure => rw [ho] at h; cases h; exact absurd rfl hp
  | ok response =>
    rw [ho] at h
    dsimp only at h
    split at h
    · exact ⟨response, rfl, ‹_›, h⟩
    · cases h
      exact absurd rfl hp

theorem isSome_of_conclude {object result : Option Object}
    (h : conclude scheme hook report object = .ok result) : result.isSome = object.isSome := by
  obtain ⟨-, rfl⟩ | ⟨_, _, _, -, -, rfl, -, rfl⟩ := conclude_cases h
  · rfl
  · rfl

/-- Where there is no object, a patch ends the request, whatever the failure policy. -/
theorem conclude_none_of_patches (hp : report.patches = true) :
    conclude scheme hook report none = .error (objectless hook.name) := by
  unfold CallReport.patches at hp
  cases hpatch : report.patch? with
  | error e => rw [hpatch] at hp; cases hp
  | ok patch =>
    rw [hpatch] at hp
    have hne : patch ≠ [] := by simpa using hp
    -- only an answer that allows has a patch, and such an answer does not end the request
    have ha : report.abort? hook = none := by
      obtain ⟨response, ho, hallowed, -⟩ := exists_response_of_patch? hpatch hne
      unfold CallReport.abort?
      rw [ho]
      exact if_pos hallowed
    unfold conclude
    rw [ha, hpatch]
    show amend scheme hook.name patch none = _
    rw [amend, if_neg hne]

end Conclude

end Mutation

/-! ## 2. The objects after some calls -/

/-- The webhooks that have been called, in their order, with what came of the calls. -/
abbrev History := List (Invocation × CallReport)

namespace Mutation

/-- One call: the object is re-expressed in the kind of the webhook, and then it is what the call
makes of it. -/
def visit (scheme : Scheme) (held : GroupVersionKind × Option Object)
    (call : Invocation × CallReport) : Except StatusError (GroupVersionKind × Option Object) := do
  let object ← Versioned.reexpress scheme.convert held.1 call.1.kind held.2
  let object ← conclude scheme call.1.webhook call.2 object
  return (call.1.kind, object)

/-- **The object after some calls**, in the kind of the last of them. -/
def objectAfter (scheme : Scheme) (request : Request) (history : History) :
    Except StatusError (GroupVersionKind × Option Object) :=
  history.foldlM (visit scheme) (request.kind, request.object)

/-- **The object that a webhook of a kind is to see after some calls.** -/
def objectIn (scheme : Scheme) (request : Request) (history : History) (kind : GroupVersionKind) :
    Except StatusError (Option Object) := do
  let held ← objectAfter scheme request history
  Versioned.reexpress scheme.convert held.1 kind held.2

/-- The old object after some calls, in the kind of the last of them. -/
def oldObjectAfter (scheme : Scheme) (request : Request) (history : History) :
    Except StatusError (GroupVersionKind × Option Object) :=
  history.foldlM (fun held call => do
      let object ← Versioned.reexpress scheme.convert held.1 call.1.kind held.2
      return (call.1.kind, object))
    (request.kind, request.oldObject)

/-- **The old object that a webhook of a kind is to see after some calls.** -/
def oldObjectIn (scheme : Scheme) (request : Request) (history : History)
    (kind : GroupVersionKind) : Except StatusError (Option Object) := do
  let held ← oldObjectAfter scheme request history
  Versioned.reexpress scheme.convert held.1 kind held.2

section History

variable {scheme : Scheme} {request : Request}

theorem objectAfter_concat (history : History) (call : Invocation × CallReport) :
    objectAfter scheme request (history ++ [call]) = do
      let object ← objectIn scheme request history call.1.kind
      let object ← conclude scheme call.1.webhook call.2 object
      return (call.1.kind, object) := by
  unfold objectIn objectAfter
  rw [List.foldlM_append]
  cases history.foldlM (visit scheme) (request.kind, request.object) with
  | error e => rfl
  | ok held =>
    simp only [List.foldlM_cons, List.foldlM_nil, bind_pure]
    rfl

theorem oldObjectAfter_concat (history : History) (call : Invocation × CallReport) :
    oldObjectAfter scheme request (history ++ [call]) = do
      let object ← oldObjectIn scheme request history call.1.kind
      return (call.1.kind, object) := by
  unfold oldObjectIn oldObjectAfter
  rw [List.foldlM_append]
  simp only [List.foldlM_cons, List.foldlM_nil, bind_pure, bind_assoc]

theorem visit_eq_ok {held next : GroupVersionKind × Option Object}
    {call : Invocation × CallReport} (h : visit scheme held call = .ok next) :
    next.1 = call.1.kind ∧ ∃ object,
      Versioned.reexpress scheme.convert held.1 call.1.kind held.2 = .ok object ∧
        conclude scheme call.1.webhook call.2 object = .ok next.2 := by
  obtain ⟨object, ho, h⟩ := bind_eq_ok.1 h
  obtain ⟨result, hr, h⟩ := bind_eq_ok.1 h
  cases h
  exact ⟨rfl, object, ho, hr⟩

theorem passes_of_objectAfter {history : History} {held : GroupVersionKind × Option Object}
    (h : objectAfter scheme request history = .ok held) :
    ∀ call ∈ history, call.2.Passes call.1.webhook := by
  induction history using List.reverseRecOn generalizing held with
  | nil => simp
  | append_singleton history call ih =>
    rw [objectAfter_concat] at h
    obtain ⟨object, ho, hrest⟩ := bind_eq_ok.1 h
    obtain ⟨result, hr, -⟩ := bind_eq_ok.1 hrest
    obtain ⟨before, hb, -⟩ := bind_eq_ok.1 ho
    intro c hc
    rcases List.mem_append.1 hc with hc | hc
    · exact ih hb c hc
    · rw [List.mem_singleton.1 hc]
      exact CallReport.abort?_eq_none_iff.1 (abort?_of_conclude hr)

theorem isSome_of_objectAfter {history : History} {held : GroupVersionKind × Option Object}
    (h : objectAfter scheme request history = .ok held) :
    held.2.isSome = request.object.isSome := by
  refine foldlM_keeps (P := fun held => held.2.isSome = request.object.isSome) ?_ rfl h
  intro held call next hp hv
  obtain ⟨-, object, ho, hc⟩ := visit_eq_ok hv
  rw [isSome_of_conclude hc, Versioned.isSome_of_reexpress ho, hp]

theorem isSome_of_objectIn {history : History} {kind : GroupVersionKind} {object : Option Object}
    (h : objectIn scheme request history kind = .ok object) :
    object.isSome = request.object.isSome := by
  obtain ⟨held, hheld, hobject⟩ := bind_eq_ok.1 h
  rw [Versioned.isSome_of_reexpress hobject, isSome_of_objectAfter hheld]

theorem patches_eq_false_of_objectless (hn : request.object = none) {history : History}
    {held : GroupVersionKind × Option Object}
    (h : objectAfter scheme request history = .ok held) :
    ∀ call ∈ history, call.2.patches = false := by
  induction history using List.reverseRecOn generalizing held with
  | nil => simp
  | append_singleton history call ih =>
    rw [objectAfter_concat] at h
    obtain ⟨object, ho, hrest⟩ := bind_eq_ok.1 h
    obtain ⟨result, hr, -⟩ := bind_eq_ok.1 hrest
    obtain ⟨before, hb, -⟩ := bind_eq_ok.1 ho
    have hnone : object = none := by simpa [hn] using isSome_of_objectIn ho
    intro c hc
    rcases List.mem_append.1 hc with hc | hc
    · exact ih hb c hc
    · rw [List.mem_singleton.1 hc]
      by_contra hp
      rw [hnone, conclude_none_of_patches (by simpa using hp)] at hr
      cases hr

/-- **The way does not matter to the old object.**  If conversions compose, and converting the old
object to the kind of the request leaves it alone, a webhook sees it as converted at once. -/
theorem oldObjectIn_of_composes (hc : scheme.convert.Composes) {old : Object}
    (ho : request.oldObject = some old) (hk : scheme.convert old request.kind = .ok old)
    {history : History} {kind : GroupVersionKind} {result : Option Object}
    (h : oldObjectIn scheme request history kind = .ok result) :
    ∃ object, result = some object ∧ scheme.convert old kind = .ok object := by
  obtain ⟨held, hheld, hr⟩ := bind_eq_ok.1 h
  -- what is held is the old object converted at once, whatever kinds there were on the way
  obtain ⟨object, hobject, hconv⟩ : ∃ object, held.2 = some object ∧
      scheme.convert old held.1 = .ok object := by
    refine foldlM_keeps (P := fun held => ∃ object, held.2 = some object ∧
      scheme.convert old held.1 = .ok object) ?_ ⟨old, ho, hk⟩ hheld
    rintro ⟨via, o⟩ call ⟨next, o'⟩ ⟨object, rfl, hconv⟩ hs
    obtain ⟨result, hr, hs⟩ := bind_eq_ok.1 hs
    cases hs
    exact Versioned.reexpress_of_composes hc hconv hr
  rw [hobject] at hr
  exact Versioned.reexpress_of_composes hc hconv hr

end History

end Mutation

end Admission
