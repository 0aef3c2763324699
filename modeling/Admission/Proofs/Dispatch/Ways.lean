import Admission.Proofs.Dispatch.Versioned

/-!
# The kinds on the way

Webhooks of different kinds take the objects of a request through one kind after another, and any of them
could as well have got them straight from the request.  The two come to the same, although the request's own
kind is a copy where it is the first and a conversion where it is a later one.  What carries this is that
objects state the kind they are held in (`Versioned.Stated`): restating it is then no change, so passing over
a conversion and making it agree.

A way succeeds if all kinds on it that are entered from another one (`Versioned.entered`) can be stated
(`Versioned.Stated.convertAlong_eq_ok_iff`).
-/

namespace Admission

namespace Versioned

/-! ## 1. One kind -/

/-- There is nothing to convert. -/
def IsVoid (v : Versioned) : Prop := v.object = none ∧ v.oldObject = none

theorem convertObject_relabel_eq_ok_iff {kind : GroupVersionKind} {object result : Option Object} :
    convertObject .relabel kind object = .ok result ↔
      (kind.isComplete = true ∨ object = none) ∧ result = object.map (·.withKind kind) := by
  have hok : ∀ a : Option Object, (Except.ok a : Except StatusError _) = .ok result ↔ result = a :=
    fun a => ⟨fun h => (Except.ok.inj h).symm, fun h => h ▸ rfl⟩
  cases object with
  | none => simp [convertObject, hok]
  | some object => by_cases hk : kind.isComplete = true <;> simp [convertObject, Converter.relabel, hk, hok]

section Stated

variable {v after : Versioned} {kind : GroupVersionKind}

theorem isVoid_withKind (v : Versioned) (kind : GroupVersionKind) :
    (v.withKind kind).IsVoid ↔ v.IsVoid := by
  simp [IsVoid, withKind]

/-- **One conversion**: it is a restatement, and succeeds if it is none, or a possible one. -/
theorem Stated.convertTo_eq_ok_iff (hv : v.Stated) :
    v.convertTo .relabel kind = .ok after ↔
      (v.kind = kind ∨ kind.isComplete = true ∨ v.IsVoid) ∧ after = v.withKind kind := by
  unfold Versioned.convertTo
  by_cases hheld : v.kind = kind
  · subst hheld
    rw [if_pos rfl, hv, Except.ok.injEq]
    exact ⟨fun h => ⟨.inl rfl, h.symm⟩, fun h => h.2.symm⟩
  · rw [if_neg hheld, bind_eq_ok]
    constructor
    · rintro ⟨object, hobject, hrest⟩
      obtain ⟨oldObject, hold, hafter⟩ := bind_eq_ok.1 hrest
      obtain ⟨hcan, rfl⟩ := convertObject_relabel_eq_ok_iff.1 hobject
      obtain ⟨hcan', rfl⟩ := convertObject_relabel_eq_ok_iff.1 hold
      refine ⟨.inr ?_, (Except.ok.inj hafter).symm⟩
      rcases hcan with hk | hnone
      · exact .inl hk
      · exact hcan'.imp_right fun hnone' => ⟨hnone, hnone'⟩
    · rintro ⟨hcan, rfl⟩
      have hcan : kind.isComplete = true ∨ v.IsVoid := hcan.resolve_left hheld
      exact ⟨_, convertObject_relabel_eq_ok_iff.2 ⟨hcan.imp_right (·.1), rfl⟩,
        bind_eq_ok.2 ⟨_, convertObject_relabel_eq_ok_iff.2 ⟨hcan.imp_right (·.2), rfl⟩, rfl⟩⟩

end Stated

/-! ## 2. One kind after another -/

/-- Objects in one kind after another. -/
def convertAlong (convert : Converter) (v : Versioned) (kinds : List GroupVersionKind) :
    Except StatusError Versioned :=
  kinds.foldlM (fun held kind => held.convertTo convert kind) v

/-- The kinds of a way that are entered from another kind, so that there is a conversion. -/
def entered (held : GroupVersionKind) : List GroupVersionKind → List GroupVersionKind
  | [] => []
  | kind :: rest => if held = kind then entered kind rest else kind :: entered kind rest

theorem forall_entered_cons {P : GroupVersionKind → Prop} {held kind : GroupVersionKind}
    {rest : List GroupVersionKind} :
    (∀ k ∈ entered held (kind :: rest), P k) ↔ (held = kind ∨ P kind) ∧ ∀ k ∈ entered kind rest, P k := by
  by_cases h : held = kind <;> simp [entered, h]

theorem eq_or_mem_entered (held : GroupVersionKind) (kinds : List GroupVersionKind) :
    held = kinds.getLastD held ∨ kinds.getLastD held ∈ entered held kinds := by
  induction kinds generalizing held with
  | nil => exact .inl rfl
  | cons kind rest ih =>
    rw [List.getLastD_cons, entered]
    by_cases h : held = kind
    · rw [if_pos h, h]
      exact ih kind
    · rw [if_neg h, List.mem_cons]
      exact .inr ((ih kind).imp_left Eq.symm)

/-- **One conversion after another** restates the last kind, and succeeds if every kind that is entered can
be stated. -/
theorem Stated.convertAlong_eq_ok_iff {v after : Versioned} (hv : v.Stated) {kinds : List GroupVersionKind} :
    v.convertAlong .relabel kinds = .ok after ↔
      ((∀ kind ∈ entered v.kind kinds, kind.isComplete = true) ∨ v.IsVoid) ∧
        after = v.withKind (kinds.getLastD v.kind) := by
  induction kinds generalizing v with
  | nil =>
    have hsame : v.withKind v.kind = v := hv
    show Except.ok v = .ok after ↔ _
    rw [Except.ok.injEq, List.getLastD_nil, hsame]
    exact ⟨fun h => ⟨.inl (List.forall_mem_nil _), h.symm⟩, fun h => h.2.symm⟩
  | cons kind rest ih =>
    have hstep : v.convertAlong .relabel (kind :: rest) =
        v.convertTo .relabel kind >>= fun held => held.convertAlong .relabel rest := rfl
    have hnext : ∀ held, v.convertTo .relabel kind = .ok held → held = v.withKind kind :=
      fun held h => (hv.convertTo_eq_ok_iff.1 h).2
    rw [hstep, bind_eq_ok, forall_entered_cons, List.getLastD_cons]
    constructor
    · rintro ⟨held, hfirst, hothers⟩
      obtain ⟨hcan, rfl⟩ := hv.convertTo_eq_ok_iff.1 hfirst
      obtain ⟨hrest, rfl⟩ := (ih (stated_withKind v kind)).1 hothers
      rw [isVoid_withKind] at hrest
      refine ⟨?_, withKind_withKind v kind _⟩
      rcases hrest with hrest | hvoid
      · rcases hcan with hsame | hk | hvoid
        · exact .inl ⟨.inl hsame, hrest⟩
        · exact .inl ⟨.inr hk, hrest⟩
        · exact .inr hvoid
      · exact .inr hvoid
    · rintro ⟨hcan, rfl⟩
      refine ⟨v.withKind kind, hv.convertTo_eq_ok_iff.2 ⟨?_, rfl⟩, (ih (stated_withKind v kind)).2 ⟨?_, ?_⟩⟩
      · rcases hcan with ⟨hsame | hk, -⟩ | hvoid
        · exact .inl hsame
        · exact .inr (.inl hk)
        · exact .inr (.inr hvoid)
      · rw [isVoid_withKind]
        exact hcan.imp_left (·.2)
      · exact (withKind_withKind v kind _).symm

end Versioned

/-! ## 3. From the request -/

/-- A mark that an object was patched has no part in a conversion. -/
theorem Versioned.convertTo_marked (convert : Converter) (v : Versioned) (kind : GroupVersionKind)
    (dirty : Bool) : ({ v with dirty := dirty } : Versioned).convertTo convert kind =
      (v.convertTo convert kind).map ({ · with dirty := dirty }) := by
  unfold Versioned.convertTo
  by_cases hheld : v.kind = kind
  · rw [if_pos hheld, if_pos hheld]
    rfl
  · rw [if_neg hheld, if_neg hheld]
    dsimp only
    cases convertObject convert kind v.object with
    | error e => rfl
    | ok object => cases convertObject convert kind v.oldObject <;> rfl

namespace Request

/-- The objects of a request, in a first kind and then in one kind after another; whoever got them in the
first kind may have marked them as patched. -/
def objectsByWay (request : Request) (first : GroupVersionKind) (dirty : Bool)
    (kinds : List GroupVersionKind) : Except StatusError Versioned := do
  let objects ← Versioned.ofRequest .relabel request first
  Versioned.convertAlong .relabel { objects with dirty := dirty } kinds

variable {request : Request}

/-- **Where a way leads, and whether it can be taken**, from objects that state the kind of the request. -/
theorem objectsByWay_eq_ok_iff (hstated : (Versioned.submitted request).Stated) {first : GroupVersionKind}
    {dirty : Bool} {kinds : List GroupVersionKind} {after : Versioned} :
    request.objectsByWay first dirty kinds = .ok after ↔
      ((∀ kind ∈ Versioned.entered request.kind (first :: kinds), kind.isComplete = true) ∨
          (Versioned.submitted request).IsVoid) ∧
        after = { (Versioned.submitted request).withKind (kinds.getLastD first) with dirty := dirty } := by
  have hway : request.objectsByWay first dirty kinds =
      ({ Versioned.submitted request with dirty := dirty } : Versioned).convertAlong .relabel
        (first :: kinds) := by
    show _ = Versioned.convertTo _ _ _ >>= _
    rw [Versioned.convertTo_marked]
    unfold objectsByWay Versioned.ofRequest
    cases (Versioned.submitted request).convertTo .relabel first <;> rfl
  have hmarked : ({ Versioned.submitted request with dirty := dirty } : Versioned).Stated := by
    rw [Versioned.stated_iff] at hstated ⊢
    exact hstated
  rw [hway, hmarked.convertAlong_eq_ok_iff, List.getLastD_cons]
  rfl

end Request

/-- **The way to a kind does not show.**  Take objects that state the kind of their request to a first kind
and then to one kind after another.  This succeeds exactly if all kinds that are entered from another one
have a name and a version, or there are no objects.  They are then what they are when the request's objects
are brought to the last kind at once, which succeeds as well: the objects of the request, with a restated kind
and everything else as it was; and in the request's own kind they are its very objects.  A mark that the
object was patched stays. -/
theorem way_does_not_show {request : Request}
    (hobject : ∀ o ∈ request.object, o.types = some request.kind.typeMeta)
    (hold : ∀ o ∈ request.oldObject, o.types = some request.kind.typeMeta) (first : GroupVersionKind)
    (dirty : Bool) (kinds : List GroupVersionKind) :
    ((∃ after, request.objectsByWay first dirty kinds = .ok after) ↔
      (∀ kind ∈ Versioned.entered request.kind (first :: kinds), kind.version ≠ "" ∧ kind.kind ≠ "") ∨
        request.object = none ∧ request.oldObject = none) ∧
    ∀ after, request.objectsByWay first dirty kinds = .ok after →
      let last := kinds.getLastD first
      (∃ direct, Versioned.ofRequest .relabel request last = .ok direct ∧
        after.object = direct.object ∧ after.oldObject = direct.oldObject) ∧
      after.object = request.object.map (fun o => ⟨some last.typeMeta, o.metadata, o.data⟩) ∧
      after.oldObject = request.oldObject.map (fun o => ⟨some last.typeMeta, o.metadata, o.data⟩) ∧
      after.kind = last ∧ after.dirty = dirty ∧
      (last = request.kind → after.object = request.object ∧ after.oldObject = request.oldObject) := by
  have hstated : (Versioned.submitted request).Stated := Versioned.stated_iff.2 ⟨hobject, hold⟩
  have hcomplete : ∀ kind : GroupVersionKind, kind.isComplete = true ↔ kind.version ≠ "" ∧ kind.kind ≠ "" :=
    fun kind => by simp [GroupVersionKind.isComplete, and_comm]
  refine ⟨?_, ?_⟩
  · simp only [Request.objectsByWay_eq_ok_iff hstated, hcomplete]
    exact ⟨fun ⟨_, hcan, _⟩ => hcan, fun hcan => ⟨_, hcan, rfl⟩⟩
  · intro after hway last
    obtain ⟨hcan, rfl⟩ := (Request.objectsByWay_eq_ok_iff hstated).1 hway
    have hdirect : request.kind = last ∨ last.isComplete = true ∨ (Versioned.submitted request).IsVoid := by
      have hlast := Versioned.eq_or_mem_entered request.kind (first :: kinds)
      rw [List.getLastD_cons] at hlast
      rcases hcan with hall | hvoid
      · exact hlast.imp_right fun hm => .inl (hall last hm)
      · exact .inr (.inr hvoid)
    refine ⟨⟨_, hstated.convertTo_eq_ok_iff.2 ⟨hdirect, rfl⟩, rfl, rfl⟩, rfl, rfl, rfl, rfl, fun hlast => ?_⟩
    have hsame : (Versioned.submitted request).withKind last = Versioned.submitted request := by
      rw [hlast]
      exact hstated
    exact ⟨congrArg Versioned.object hsame, congrArg Versioned.oldObject hsame⟩

/-! ### a deployment on its way -/

/-- The kind of deployments, as it is and as it was. -/
def deploymentKind : GroupVersionKind := ⟨"apps", "v1", "Deployment"⟩

def formerDeploymentKind : GroupVersionKind := ⟨"extensions", "v1beta1", "Deployment"⟩

/-- An object that is a deployment, with a label and a field of its own. -/
def labelledDeployment : Object where
  types := some deploymentKind.typeMeta
  metadata := { name := some "web", labels := some (Dict.empty.insert "app" "web") }
  data := Dict.empty.insert "replicas" (.int 3)

/-- A deployment is changed. -/
def deploymentUpdate : Request where
  uid := "uid"
  kind := deploymentKind
  resource := ⟨"apps", "v1", "deployments"⟩
  operation := .update
  object := some labelledDeployment
  oldObject := some { labelledDeployment with data := ∅ }

/-- A deployment that was what it was and is again comes to itself, marked as before; by way of a kind without
a name it does not. -/
theorem way_does_not_show_deployment :
    (∃ after, deploymentUpdate.objectsByWay formerDeploymentKind true
        [formerDeploymentKind, deploymentKind] = .ok after ∧
      after.object = some labelledDeployment ∧ after.oldObject = deploymentUpdate.oldObject ∧
      after.dirty = true) ∧
    ¬ ∃ after, deploymentUpdate.objectsByWay formerDeploymentKind true
      [⟨"apps", "v2", ""⟩, deploymentKind] = .ok after := by
  have hobject : ∀ o ∈ deploymentUpdate.object, o.types = some deploymentUpdate.kind.typeMeta := by
    rintro o ⟨⟩
    rfl
  have hold : ∀ o ∈ deploymentUpdate.oldObject, o.types = some deploymentUpdate.kind.typeMeta := by
    rintro o ⟨⟩
    rfl
  constructor
  · obtain ⟨hcan, hafter⟩ := way_does_not_show hobject hold formerDeploymentKind true
      [formerDeploymentKind, deploymentKind]
    obtain ⟨after, hway⟩ := hcan.2 (.inl (by decide))
    obtain ⟨-, -, -, -, hdirty, hback⟩ := hafter after hway
    obtain ⟨hsame, hsame'⟩ := hback rfl
    exact ⟨after, hway, hsame, hsame', hdirty⟩
  · obtain ⟨hcan, -⟩ := way_does_not_show hobject hold formerDeploymentKind true
      [⟨"apps", "v2", ""⟩, deploymentKind]
    rw [hcan]
    decide

end Admission
