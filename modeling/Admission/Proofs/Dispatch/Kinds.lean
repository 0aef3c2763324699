import Admission.Proofs.Dispatch.Fidelity
import Admission.Proofs.Dispatch.Validating

/-!
# Objects state the kind they are sent in, until a patch says otherwise

The objects of a request are held in a kind, and what is asked for in the kind they are held in is not
converted.  So the documents that webhooks are sent state the kind they are sent in as long as the objects
held do.  Conversion by restating the kind sees to that; a patch need not: it may change what the object
says of its kind (`Mutation.Relabels`), and nothing restates it until a webhook asks for another kind
(`reviews_state_their_kind`).
-/

namespace Admission

/-! ## 1. Documents and objects of a kind -/

/-- **A document that states a kind.** -/
def Json.StatesKind (document : Json) (kind : GroupVersionKind) : Prop :=
  document.field? "apiVersion" = some (.str kind.apiVersion) ∧
    document.field? "kind" = some (.str kind.kind)

instance (document : Json) (kind : GroupVersionKind) : Decidable (document.StatesKind kind) :=
  inferInstanceAs (Decidable (_ ∧ _))

namespace Object

/-- **An object of a kind**: it says that it is, and nothing else about it. -/
structure IsOf (o : Object) (kind : GroupVersionKind) : Prop where
  types : o.types = some kind.typeMeta
  withoutVersion : o.data.get? "apiVersion" = none
  withoutKind : o.data.get? "kind" = none

variable {o : Object} {kind : GroupVersionKind}

theorem IsOf.withKind (h : o.IsOf kind) (other : GroupVersionKind) : (o.withKind other).IsOf other :=
  ⟨rfl, h.withoutVersion, h.withoutKind⟩

theorem IsOf.statesKind (h : o.IsOf kind) : o.toJson.StatesKind kind := by
  constructor
  · show Fields.get? "apiVersion" o.fields.fields = _
    rw [get?_fields, h.withoutVersion, h.types]
    rfl
  · show Fields.get? "kind" o.fields.fields = _
    rw [get?_fields_kind, h.withoutKind, h.types]
    rfl

theorem get?_kind_of_takeTypes {fields data : Dict Json} {types : TypeMeta}
    (h : takeTypes fields = (some types, data)) : data.get? "kind" = none := by
  unfold takeTypes at h
  split at h <;> cases h
  rw [Dict.get?_erase, if_pos rfl]

theorem isOf_of_ofJson {value : Json} (h : ofJson value = .ok o)
    (ht : o.types = some kind.typeMeta) : o.IsOf kind := by
  obtain ⟨fields, -, -, htypes⟩ := ofJson_eq_ok.1 h
  exact ⟨ht, get?_version_of_takeTypes htypes, get?_kind_of_takeTypes (ht ▸ htypes)⟩

/-- **An object that was read is written as a document that states a kind** if that kind was read, and
only then. -/
theorem statesKind_iff_of_ofJson {value : Json} (h : ofJson value = .ok o) :
    o.toJson.StatesKind kind ↔ o.types = some kind.typeMeta := by
  refine ⟨fun ⟨hversion, hkind⟩ => ?_, fun ht => (isOf_of_ofJson h ht).statesKind⟩
  obtain ⟨fields, -, -, htypes⟩ := ofJson_eq_ok.1 h
  change Fields.get? "apiVersion" o.fields.fields = _ at hversion
  change Fields.get? "kind" o.fields.fields = _ at hkind
  rw [get?_fields, get?_version_of_takeTypes htypes] at hversion
  cases ho : o.types with
  | none =>
    rw [ho] at hversion
    cases hversion
  | some types =>
    rw [get?_fields_kind, get?_kind_of_takeTypes (ho ▸ htypes), ho] at hkind
    rw [ho] at hversion
    obtain ⟨version, name⟩ := types
    obtain rfl : version = kind.apiVersion := by simpa using hversion
    obtain rfl : name = kind.kind := by simpa using hkind
    rfl

end Object

theorem Versioned.isOf_of_reexpress {held kind : GroupVersionKind} {object result : Option Object}
    (ho : ∀ o ∈ object, o.IsOf held) (h : reexpress .relabel held kind object = .ok result) :
    ∀ o ∈ result, o.IsOf kind := by
  obtain ⟨rfl, rfl⟩ | ⟨-, rfl⟩ | ⟨before, after, rfl, hconvert, rfl⟩ := reexpress_cases h
  · exact ho
  · exact fun o hm => absurd hm (Option.not_mem_none o)
  · intro o hm
    obtain rfl := Option.mem_some.1 hm
    rw [Converter.eq_withKind_of_relabel hconvert]
    exact (ho before rfl).withKind kind

/-! ## 2. What the calls make of the kind -/

namespace Mutation

variable {scheme : Scheme} {request : Request} {history earlier : History}
  {call : Invocation × CallReport}

/-- **A call whose patch changes what the object says of its kind.** -/
def Relabels (scheme : Scheme) (request : Request) (earlier : History)
    (call : Invocation × CallReport) : Prop :=
  ∃ sent patch left, objectIn scheme request earlier call.1.kind = .ok (some sent) ∧
    call.2.patch? = .ok patch ∧ patch ≠ [] ∧ patchObject patch sent = .ok left ∧
    left.types ≠ some call.1.kind.typeMeta

/-- Whether some call has changed what the object says of its kind. -/
def Misstated (scheme : Scheme) (request : Request) (history : History) : Prop :=
  ∃ earlier call later, history = earlier ++ call :: later ∧ Relabels scheme request earlier call

theorem Misstated.concat (h : Misstated scheme request history) (call : Invocation × CallReport) :
    Misstated scheme request (history ++ [call]) := by
  obtain ⟨earlier, first, later, rfl, hfirst⟩ := h
  exact ⟨earlier, first, later ++ [call], by simp, hfirst⟩

variable (hconvert : scheme.convert = .relabel)
include hconvert

theorem isOf_of_oldObjectAfter (hold : ∀ o ∈ request.oldObject, o.IsOf request.kind)
    {held : GroupVersionKind × Option Object}
    (h : oldObjectAfter scheme request history = .ok held) : ∀ o ∈ held.2, o.IsOf held.1 := by
  refine foldlM_keeps (P := fun held => ∀ o ∈ held.2, o.IsOf held.1) ?_ hold h
  intro held call next hp hs
  obtain ⟨result, hr, hs⟩ := bind_eq_ok.1 hs
  cases hs
  exact Versioned.isOf_of_reexpress hp (hconvert ▸ hr)

theorem isOf_of_oldObjectIn (hold : ∀ o ∈ request.oldObject, o.IsOf request.kind)
    {kind : GroupVersionKind} {object : Option Object}
    (h : oldObjectIn scheme request history kind = .ok object) : ∀ o ∈ object, o.IsOf kind := by
  obtain ⟨held, hheld, hr⟩ := bind_eq_ok.1 h
  exact Versioned.isOf_of_reexpress (isOf_of_oldObjectAfter hconvert hold hheld) (hconvert ▸ hr)

variable (hdefaults : scheme.applyDefaults = id)
include hdefaults

/-- **The object is of the kind it is held in, unless some call has changed what it says of it.** -/
theorem isOf_of_objectAfter (hobject : ∀ o ∈ request.object, o.IsOf request.kind)
    {held : GroupVersionKind × Option Object}
    (h : objectAfter scheme request history = .ok held) :
    (∀ o ∈ held.2, o.IsOf held.1) ∨ Misstated scheme request history := by
  induction history using List.reverseRecOn generalizing held with
  | nil => cases h; exact .inl hobject
  | append_singleton history call ih =>
    rw [objectAfter_concat] at h
    obtain ⟨object, hin, h⟩ := bind_eq_ok.1 h
    obtain ⟨result, hconclude, h⟩ := bind_eq_ok.1 h
    cases h
    obtain ⟨before, hbefore, hreexpress⟩ := bind_eq_ok.1 hin
    obtain hkinds | hmisstated := ih hbefore
    · have hsent := Versioned.isOf_of_reexpress hkinds (hconvert ▸ hreexpress)
      obtain ⟨-, rfl⟩ | ⟨patch, sent, left, hpatch, hne, rfl, hleft, rfl⟩ := conclude_cases hconclude
      · exact .inl hsent
      · rw [hdefaults]
        by_cases htypes : left.types = some call.1.kind.typeMeta
        · left
          intro o hm
          obtain rfl := Option.mem_some.1 hm
          obtain ⟨_, -, hread⟩ := exists_of_patchObject hleft
          exact Object.isOf_of_ofJson hread htypes
        · exact .inr ⟨history, call, [], rfl, sent, patch, left, hin, hpatch, hne, hleft, htypes⟩
    · exact .inr (hmisstated.concat call)

theorem isOf_of_objectIn (hobject : ∀ o ∈ request.object, o.IsOf request.kind)
    {kind : GroupVersionKind} {object : Option Object}
    (h : objectIn scheme request history kind = .ok object) :
    (∀ o ∈ object, o.IsOf kind) ∨ Misstated scheme request history := by
  obtain ⟨held, hheld, hr⟩ := bind_eq_ok.1 h
  obtain hkinds | hmisstated := isOf_of_objectAfter hconvert hdefaults hobject hheld
  · exact .inl (Versioned.isOf_of_reexpress hkinds (hconvert ▸ hr))
  · exact .inr hmisstated

omit hconvert in
/-- **Nothing restates the kind** after a call that has changed what the object says of it, as long as the
object is asked for in the kind it is held in. -/
theorem not_statesKind_of_relabels (hrelabels : Relabels scheme request earlier call)
    {object : Option Object}
    (h : objectIn scheme request (earlier ++ [call]) call.1.kind = .ok object) :
    ∃ o, object = some o ∧ ¬ o.toJson.StatesKind call.1.kind := by
  obtain ⟨sent, patch, left, hsent, hpatch, hne, hleft, htypes⟩ := hrelabels
  obtain ⟨held, hheld, hr⟩ := bind_eq_ok.1 h
  rw [objectAfter_concat] at hheld
  obtain ⟨object', hin, hheld⟩ := bind_eq_ok.1 hheld
  rw [hsent] at hin
  cases hin
  obtain ⟨result, hconclude, hheld⟩ := bind_eq_ok.1 hheld
  cases hheld
  unfold Versioned.reexpress at hr
  rw [if_pos rfl] at hr
  cases hr
  obtain ⟨hempty, -⟩ | ⟨patch', before, after, hpatch', -, hbefore, hafter, rfl⟩ :=
    conclude_cases hconclude
  · rw [hpatch] at hempty
    exact absurd (Except.ok.inj hempty) hne
  · rw [hpatch] at hpatch'
    cases hpatch'
    cases hbefore
    rw [hleft] at hafter
    cases hafter
    obtain ⟨_, -, hread⟩ := exists_of_patchObject hleft
    refine ⟨left, by rw [hdefaults]; rfl, fun hstates => htypes ?_⟩
    exact (Object.statesKind_iff_of_ofJson hread).1 hstates

end Mutation

/-! ## 3. What webhooks are sent -/

theorem Object.statesKind_of_mem_toJson {object : Option Object} {kind : GroupVersionKind}
    (h : ∀ o ∈ object, o.IsOf kind) : ∀ document ∈ object.map toJson, document.StatesKind kind := by
  intro document hm
  obtain ⟨o, ho, rfl⟩ := Option.map_eq_some_iff.1 (Option.mem_def.1 hm)
  exact (h o ho).statesKind

namespace ValidatingDispatch

variable {σ : Type} {caller : Caller σ} {scheme : Scheme} {request : Request} {tally : Tally}
  {invocations : List Invocation} {world : σ} {after : Dispatched σ}

theorem ComesTo.exists_ofRequest (h : ComesTo caller scheme request tally invocations world after)
    {report : CallReport} (hr : report ∈ after.reports) {review : Review}
    (hs : report.sent = some review) :
    ∃ invocation objects, Versioned.ofRequest scheme.convert request invocation.kind = .ok objects ∧
      review = Review.ask request invocation objects.object objects.oldObject := by
  cases h with
  | unprepared => cases hr
  | @joined crew finished =>
    obtain ⟨prepared, hprepare, hv, -⟩ := finished.exists_valid
    obtain ⟨⟨task, _⟩, hm, rfl⟩ := List.mem_map.1 hr
    obtain ⟨p, hp, before, rfl⟩ := hv.exists_call hm
    exact ⟨p.1, p.2, (prepare_ok hprepare).2 p (List.mem_of_getElem? hp),
      Caller.sent_call caller request p.1 p.2 before hs⟩

end ValidatingDispatch

open Mutation

/-- **Every review states the kind it is sent in, until a patch changes what the object says of it.**  Take
a request whose objects are of its kind, conversion by restating the kind, and no defaults.  The old object
always states the kind of the review.  The object does unless an earlier call has changed what it says;
and if the call just before has and was for the same kind, it does not.  What is true of the object in a
review is true of the admitted object and the kind of the request.  Reviews of a validating dispatch, in
whatever interleaving, state their kind throughout. -/
theorem reviews_state_their_kind {σ : Type} {scheme : Scheme} (hconvert : scheme.convert = .relabel)
    (hdefaults : scheme.applyDefaults = id) {request : Request}
    (hobject : ∀ o ∈ request.object, o.IsOf request.kind)
    (hold : ∀ o ∈ request.oldObject, o.IsOf request.kind) (caller : Caller σ) (tally : Tally)
    (invocations : List Invocation) (world : σ) :
    (let after := MutatingDispatch.dispatch caller scheme request tally invocations world
     let history := invocations.zip after.reports
     (∀ i report review asked, after.reports[i]? = some report → report.sent = some review →
        review.request = some asked →
        (∀ document ∈ asked.oldObject, document.StatesKind asked.kind) ∧
        ((∀ document ∈ asked.object, document.StatesKind asked.kind) ∨
          Misstated scheme request (history.take i)) ∧
        ∀ earlier call, history.take i = earlier ++ [call] → Relabels scheme request earlier call →
          call.1.kind = asked.kind → ∃ document ∈ asked.object, ¬ document.StatesKind asked.kind) ∧
     (after.verdict = .ok () →
        ((∀ o ∈ after.request.object, o.toJson.StatesKind request.kind) ∨
          Misstated scheme request history) ∧
        ∀ earlier call, history = earlier ++ [call] → Relabels scheme request earlier call →
          call.1.kind = request.kind →
          ∃ o ∈ after.request.object, ¬ o.toJson.StatesKind request.kind)) ∧
    ∀ after, ValidatingDispatch.ComesTo caller scheme request tally invocations world after →
      ∀ report ∈ after.reports, ∀ review ∈ report.sent, ∀ asked ∈ review.request,
        (∀ document ∈ asked.object, document.StatesKind asked.kind) ∧
        ∀ document ∈ asked.oldObject, document.StatesKind asked.kind := by
  refine ⟨⟨?_, ?_⟩, ?_⟩
  · intro i report review asked hr hs hasked
    obtain ⟨invocation, objects, -, hreached, rfl⟩ :=
      MutatingDispatch.exists_reached caller scheme request tally invocations world hr hs
    cases hasked
    refine ⟨Object.statesKind_of_mem_toJson
      (isOf_of_oldObjectIn hconvert hold hreached.oldObject), ?_, ?_⟩
    · exact (isOf_of_objectIn hconvert hdefaults hobject hreached.object).imp_left
        Object.statesKind_of_mem_toJson
    · intro earlier call hlast hrelabels hkind
      have hin := hreached.object
      rw [hlast] at hin
      dsimp only [Review.ask] at hkind ⊢
      rw [← hkind] at hin ⊢
      obtain ⟨o, ho, hstates⟩ := not_statesKind_of_relabels hdefaults hrelabels hin
      exact ⟨o.toJson, by rw [ho]; rfl, hstates⟩
  · intro hok
    obtain ⟨stop, run, hrun, hhalt⟩ :=
      MutatingDispatch.exists_halt caller scheme request tally invocations world
    cases hhalt.ending hrun with
    | unconvertible _ _ _ verdict _ => rw [verdict] at hok; cases hok
    | aborted _ _ _ verdict _ => rw [verdict] at hok; cases hok
    | unreturnable _ _ _ _ verdict _ => rw [verdict] at hok; cases hok
    | untouched all passed unpatched verdict same =>
      refine ⟨.inl fun o ho => ?_, fun earlier call hlast hrelabels _ => ?_⟩
      · rw [same] at ho
        exact (hobject o ho).statesKind
      · obtain ⟨_, patch, _, -, hpatch, hne, -, -⟩ := hrelabels
        have hnone := unpatched call (by rw [hlast]; simp)
        unfold CallReport.patches at hnone
        rw [hpatch] at hnone
        exact absurd (by simpa using hnone) hne
    | @changed object all patched left verdict changed =>
      rw [changed]
      refine ⟨?_, fun earlier call hlast hrelabels hkind => ?_⟩
      · exact (isOf_of_objectIn hconvert hdefaults hobject left).imp_left
          fun h o ho => (h o ho).statesKind
      · rw [hlast, ← hkind] at left
        obtain ⟨o, ho, hstates⟩ := not_statesKind_of_relabels hdefaults hrelabels left
        exact ⟨o, ho, hkind ▸ hstates⟩
  · intro after hafter report hr review hs asked hasked
    obtain ⟨invocation, objects, ho, rfl⟩ := hafter.exists_ofRequest hr hs
    cases hasked
    unfold Versioned.ofRequest at ho
    rw [Versioned.convertTo_eq, hconvert] at ho
    obtain ⟨object, hobject', ho⟩ := bind_eq_ok.1 ho
    obtain ⟨oldObject, hold', ho⟩ := bind_eq_ok.1 ho
    cases ho
    exact ⟨Object.statesKind_of_mem_toJson (Versioned.isOf_of_reexpress hobject hobject'),
      Object.statesKind_of_mem_toJson (Versioned.isOf_of_reexpress hold hold')⟩

open MutatingDispatch

theorem isOf_namedPod : ∀ o ∈ podCreation.object, o.IsOf podCreation.kind := by
  intro o ho
  cases ho
  exact ⟨by decide, rfl, rfl⟩

/-- Two webhooks that add no labels leave a pod a pod, and a pod is admitted. -/
theorem reviews_state_their_kind_named_pods :
    let after := dispatch (patching emptyLabels) plainScheme podCreation ⟨.empty, {}, []⟩
      [podInvocation, podInvocation] ()
    after.verdict = .ok () ∧ ∀ o ∈ after.request.object, o.toJson.StatesKind podCreation.kind := by
  have hrelabel : plainScheme.convert = .relabel := rfl
  have hok : (dispatch (patching emptyLabels) plainScheme podCreation ⟨.empty, {}, []⟩
      [podInvocation, podInvocation] ()).verdict = .ok () := by decide +kernel
  have hcalls : ∀ call ∈ [podInvocation, podInvocation].zip (dispatch (patching emptyLabels)
      plainScheme podCreation ⟨.empty, {}, []⟩ [podInvocation, podInvocation] ()).reports,
      call.1.kind = podCreation.kind ∧
        call.2.patch? = .ok [.add ["metadata", "labels"] (.obj [])] := by decide +kernel
  have hheld : ∀ n < 2, objectIn plainScheme podCreation (([podInvocation, podInvocation].zip
      (dispatch (patching emptyLabels) plainScheme podCreation ⟨.empty, {}, []⟩
        [podInvocation, podInvocation] ()).reports).take n) podCreation.kind =
      .ok (some namedPod) := by decide +kernel
  have hlabels : patchObject [.add ["metadata", "labels"] (.obj [])] namedPod = .ok namedPod := by
    decide +kernel
  have hlength : (dispatch (patching emptyLabels) plainScheme podCreation ⟨.empty, {}, []⟩
      [podInvocation, podInvocation] ()).reports.length = 2 := by decide +kernel
  have hstates := (reviews_state_their_kind hrelabel rfl isOf_namedPod (fun _ h => by (cases h))
    (patching emptyLabels) ⟨.empty, {}, []⟩ [podInvocation, podInvocation] ()).1
  generalize dispatch (patching emptyLabels) plainScheme podCreation ⟨.empty, {}, []⟩
    [podInvocation, podInvocation] () = after at hok hcalls hheld hlength hstates ⊢
  refine ⟨hok, (hstates.2 hok).1.resolve_right ?_⟩
  rintro ⟨earlier, call, later, hsplit, sent, patch, left, hsent, hpatch, -, hleft, htypes⟩
  obtain ⟨hkind, hadds⟩ := hcalls call (by simp [hsplit])
  have hshort : earlier.length < 2 := by
    have h := congrArg List.length hsplit
    simp [hlength] at h
    omega
  have hpod := hheld earlier.length hshort
  rw [hsplit, List.take_left, ← hkind, hsent] at hpod
  cases hpod
  rw [hadds] at hpatch
  cases hpatch
  rw [hlabels] at hleft
  cases hleft
  exact htypes (hkind ▸ rfl)

/-- Says of the object that it is a secret. -/
def secretKind : String := "[\x7b\"op\":\"replace\",\"path\":\"/kind\",\"value\":\"Secret\"\x7d]"

/-- **A pod of which a webhook says that it is a secret** is sent as a secret to the next webhook, in a
review of kind `Pod`, and is admitted as a secret where a pod was to be created. -/
theorem pod_is_sent_and_admitted_as_secret :
    let after := dispatch (patching secretKind) plainScheme podCreation ⟨.empty, {}, []⟩
      [podInvocation, podInvocation] ()
    (∀ o ∈ podCreation.object, o.IsOf podCreation.kind) ∧ podCreation.oldObject = none ∧
      podCreation.kind.isComplete = true ∧ podInvocation.kind.isComplete = true ∧
      (∃ report review asked document, after.reports[1]? = some report ∧
        report.sent = some review ∧ review.request = some asked ∧ asked.kind = podInvocation.kind ∧
        asked.object = some document ∧ ¬ document.StatesKind asked.kind) ∧
      after.verdict = .ok () ∧
      ∃ o, after.request.object = some o ∧ ¬ o.toJson.StatesKind podCreation.kind := by
  have hsent : (((dispatch (patching secretKind) plainScheme podCreation ⟨.empty, {}, []⟩
      [podInvocation, podInvocation] ()).reports[1]?.bind (·.sent)).bind (·.request)).map
        (fun asked => (asked.kind, asked.object)) =
      some (podInvocation.kind, some (.obj [("apiVersion", .str "v1"), ("kind", .str "Secret"),
        ("metadata", .obj [("name", .str "web")])])) := by decide +kernel
  obtain ⟨asked, hasked, hdocument⟩ := Option.map_eq_some_iff.1 hsent
  obtain ⟨review, hreview, hasked⟩ := Option.bind_eq_some_iff.1 hasked
  obtain ⟨report, hreport, hreview⟩ := Option.bind_eq_some_iff.1 hreview
  obtain ⟨hkind, hobject⟩ := Prod.mk.inj hdocument
  refine ⟨isOf_namedPod, rfl, by decide, by decide,
    ⟨report, review, asked, _, hreport, hreview, hasked, hkind, hobject, ?_⟩, by decide +kernel,
    { namedPod with types := some ⟨"v1", "Secret"⟩ }, by decide +kernel, by decide +kernel⟩
  rw [hkind]
  decide +kernel

end Admission
