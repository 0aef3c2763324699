import Admission.Proofs.Json.Record
import Admission.Review

/-!
# Reviews are read back as values

Each field of a review pairs a rule for leaving it out with a default.  They match for every field but the three
that hold any value: there is no way to write that such a value is there and `null`
(`ReviewRequest.ofJson_toJson`).  A review that asks a webhook has objects in two of them, and so only the options
of the request decide whether it is read back (`Review.stated_ask`).
-/

namespace Admission

open Json (ReadsBack)

/-! ## 1. The parts -/

theorem GroupVersionKind.readsBack (gvk : GroupVersionKind) : ReadsBack ofJson toJson gvk := ⟨nofun, rfl⟩

theorem GroupVersionResource.readsBack (gvr : GroupVersionResource) : ReadsBack ofJson toJson gvr :=
  ⟨nofun, rfl⟩

theorem Operation.readsBack (operation : Operation) :
    ReadsBack ofJson (fun operation => .str operation.text) operation :=
  ⟨nofun, by cases operation <;> rfl⟩

theorem Status.readsBack {s : Status} (h : Width.fitsSigned 32 s.code) : ReadsBack ofJson toJson s where
  present := nofun
  read := by
    obtain ⟨fields, hfields, hget⟩ := Json.asRecord_ofSome (show s.toJson = .ofSome _ from rfl)
      (by simp only [List.map_cons, List.map_nil]; decide) ["status", "message", "reason", "code"]
    have hstatus := Fields.defaulted_nonempty (hget "status")
    have hmessage := Fields.defaulted_nonempty (hget "message")
    have hreason := Fields.defaulted_nonempty (hget "reason")
    have hcode : fields.defaulted "code" 0 Json.asInt32 = .ok s.code :=
      Fields.defaulted_written (hget "code") (Json.readsBack_int32 h)
    exact bind_eq_ok.2 ⟨_, hfields, bind_eq_ok.2 ⟨_, hstatus, bind_eq_ok.2 ⟨_, hmessage,
      bind_eq_ok.2 ⟨_, hreason, bind_eq_ok.2 ⟨_, hcode, rfl⟩⟩⟩⟩⟩

theorem UserInfo.readsBack (u : UserInfo) : ReadsBack ofJson toJson u where
  present := nofun
  read := by
    obtain ⟨fields, hvalue, hsorted, hget⟩ := Json.fields_ofSome (show u.toJson = .ofSome _ from rfl)
      (by simp only [List.map_cons, List.map_nil]; decide)
    have hfields : u.toJson.asFields = .ok fields := by rw [hvalue]; rfl
    have husername : fields.lastNullable "username" Json.asText = .ok u.username :=
      Fields.lastNullable_written hsorted (hget "username") fun text _ => Json.readsBack_text text
    have huid : fields.lastNullable "uid" Json.asText = .ok u.uid :=
      Fields.lastNullable_written hsorted (hget "uid") fun text _ => Json.readsBack_text text
    have hgroups : fields.lastNullable "groups" (Json.asList Json.asText) = .ok u.groups :=
      Fields.lastNullable_written hsorted (hget "groups") fun texts _ => Json.readsBack_strings texts
    have hextra : fields.lastNullable "extra" (Json.asDict (Json.asList Json.asText)) = .ok u.extra :=
      Fields.lastNullable_written hsorted (hget "extra") fun extra _ => .dict fun pair _ =>
        Json.readsBack_strings pair.2
    exact bind_eq_ok.2 ⟨_, hfields, bind_eq_ok.2 ⟨_, husername, bind_eq_ok.2 ⟨_, huid,
      bind_eq_ok.2 ⟨_, hgroups, bind_eq_ok.2 ⟨_, hextra, rfl⟩⟩⟩⟩⟩

theorem ReviewResponse.readsBack {r : ReviewResponse}
    (h : ∀ status ∈ r.result, Width.fitsSigned 32 status.code) : ReadsBack ofJson toJson r where
  present := nofun
  read := by
    obtain ⟨fields, hfields, hget⟩ := Json.asRecord_ofSome (show r.toJson = .ofSome _ from rfl)
      (by simp only [List.map_cons, List.map_nil]; decide) fieldNames
    have huid : fields.defaulted "uid" "" Json.asText = .ok r.uid :=
      Fields.defaulted_written (hget "uid") (Json.readsBack_text r.uid)
    have hallowed : fields.defaulted "allowed" false Json.asBool = .ok r.allowed :=
      Fields.defaulted_written (hget "allowed") (Json.readsBack_bool r.allowed)
    have hresult : fields.nullable "result" Status.ofJson = .ok r.result :=
      Fields.nullable_written (hget "result") fun status hs => Status.readsBack (h status hs)
    have hpatch : fields.nullable "patch" Json.asBytes = .ok r.patch :=
      Fields.nullable_written (hget "patch") fun bytes _ => Json.readsBack_bytes bytes
    have hpatchType : fields.nullable "patchType" Json.asText = .ok r.patchType :=
      Fields.nullable_written (hget "patchType") fun text _ => Json.readsBack_text text
    have hannotations : fields.nullable "auditAnnotations" (Json.asDict Json.asText) =
        .ok r.auditAnnotations :=
      Fields.nullable_written (hget "auditAnnotations") fun texts _ => Json.readsBack_texts texts
    have hwarnings : fields.nullable "warnings" (Json.asList Json.asText) = .ok r.warnings :=
      Fields.nullable_written (hget "warnings") fun texts _ => Json.readsBack_strings texts
    exact bind_eq_ok.2 ⟨_, hfields, bind_eq_ok.2 ⟨_, huid, bind_eq_ok.2 ⟨_, hallowed,
      bind_eq_ok.2 ⟨_, hresult, bind_eq_ok.2 ⟨_, hpatch, bind_eq_ok.2 ⟨_, hpatchType,
      bind_eq_ok.2 ⟨_, hannotations, bind_eq_ok.2 ⟨_, hwarnings, rfl⟩⟩⟩⟩⟩⟩⟩⟩

/-! ## 2. The request -/

namespace ReviewRequest

/-- **No value in the request is `null`.** -/
structure Stated (r : ReviewRequest) : Prop where
  object : r.object ≠ some .null
  oldObject : r.oldObject ≠ some .null
  options : r.options ≠ some .null

/-- The request without the values that are `null`. -/
def withoutNulls (r : ReviewRequest) : ReviewRequest :=
  { r with
    object := r.object.filter (· ≠ .null)
    oldObject := r.oldObject.filter (· ≠ .null)
    options := r.options.filter (· ≠ .null) }

/-- **A request is read back but for the values that are `null`**, which are read as absent. -/
theorem ofJson_toJson (r : ReviewRequest) : ofJson r.toJson = .ok r.withoutNulls := by
  obtain ⟨fields, hfields, hget⟩ := Json.asRecord_ofSome (show r.toJson = .ofSome _ from rfl)
    (by simp only [List.map_cons, List.map_nil]; decide) fieldNames
  have huid : fields.required "uid" Json.asText = .ok r.uid :=
    Fields.required_written (hget "uid") (Json.readsBack_text r.uid)
  have hkind : fields.required "kind" GroupVersionKind.ofJson = .ok r.kind :=
    Fields.required_written (hget "kind") r.kind.readsBack
  have hresource : fields.required "resource" GroupVersionResource.ofJson = .ok r.resource :=
    Fields.required_written (hget "resource") r.resource.readsBack
  have hsubresource := Fields.defaulted_nonempty (hget "subResource")
  have hrequestKind : fields.nullable "requestKind" GroupVersionKind.ofJson = .ok r.requestKind :=
    Fields.nullable_written (hget "requestKind") fun gvk _ => gvk.readsBack
  have hrequestResource : fields.nullable "requestResource" GroupVersionResource.ofJson =
      .ok r.requestResource :=
    Fields.nullable_written (hget "requestResource") fun gvr _ => gvr.readsBack
  have hrequestSubresource := Fields.defaulted_nonempty (hget "requestSubResource")
  have hname := Fields.defaulted_nonempty (hget "name")
  have hnamespace := Fields.defaulted_nonempty (hget "namespace")
  have hoperation : fields.required "operation" Operation.ofJson = .ok r.operation :=
    Fields.required_written (by exact hget "operation") r.operation.readsBack
  have huserInfo : fields.defaulted "userInfo" {} UserInfo.ofJson = .ok r.userInfo :=
    Fields.defaulted_written (hget "userInfo") r.userInfo.readsBack
  have hobject := Fields.nullable_any (hget "object")
  have holdObject := Fields.nullable_any (hget "oldObject")
  have hdryRun : fields.nullable "dryRun" Json.asBool = .ok r.dryRun :=
    Fields.nullable_written (hget "dryRun") fun b _ => Json.readsBack_bool b
  have hoptions := Fields.nullable_any (hget "options")
  exact bind_eq_ok.2 ⟨_, hfields, bind_eq_ok.2 ⟨_, huid, bind_eq_ok.2 ⟨_, hkind,
    bind_eq_ok.2 ⟨_, hresource, bind_eq_ok.2 ⟨_, hsubresource, bind_eq_ok.2 ⟨_, hrequestKind,
    bind_eq_ok.2 ⟨_, hrequestResource, bind_eq_ok.2 ⟨_, hrequestSubresource, bind_eq_ok.2 ⟨_, hname,
    bind_eq_ok.2 ⟨_, hnamespace, bind_eq_ok.2 ⟨_, hoperation, bind_eq_ok.2 ⟨_, huserInfo,
    bind_eq_ok.2 ⟨_, hobject, bind_eq_ok.2 ⟨_, holdObject, bind_eq_ok.2 ⟨_, hdryRun,
    bind_eq_ok.2 ⟨_, hoptions, rfl⟩⟩⟩⟩⟩⟩⟩⟩⟩⟩⟩⟩⟩⟩⟩⟩

theorem filter_ne_null {value? : Option Json} :
    value?.filter (· ≠ .null) = value? ↔ value? ≠ some .null := by
  cases value? with
  | none => exact iff_of_true rfl nofun
  | some value => cases value <;> simp

theorem withoutNulls_eq_self {r : ReviewRequest} : r.withoutNulls = r ↔ r.Stated := by
  constructor
  · intro h
    exact ⟨filter_ne_null.1 (congrArg object h), filter_ne_null.1 (congrArg oldObject h),
      filter_ne_null.1 (congrArg options h)⟩
  · rintro ⟨hobject, holdObject, hoptions⟩
    rw [withoutNulls, filter_ne_null.2 hobject, filter_ne_null.2 holdObject, filter_ne_null.2 hoptions]

end ReviewRequest

/-! ## 3. The review -/

namespace Review

/-- The code of a status is a number of 32 bits. -/
def FitsWidths (review : Review) : Prop :=
  ∀ response ∈ review.response, ∀ status ∈ response.result, Width.fitsSigned 32 status.code

/-- **No value in the review is `null`.** -/
def Stated (review : Review) : Prop := ∀ request ∈ review.request, request.Stated

/-- The review without the values that are `null`. -/
def withoutNulls (review : Review) : Review :=
  { review with request := review.request.map ReviewRequest.withoutNulls }

theorem ofJson_toJson {review : Review} (h : review.FitsWidths) :
    ofJson review.toJson = .ok review.withoutNulls := by
  obtain ⟨fields, hfields, hget⟩ := Json.asRecord_ofSome (show review.toJson = .ofSome _ from rfl)
    (by simp only [List.map_cons, List.map_nil]; decide) ["apiVersion", "kind", "request", "response"]
  have hversion : fields.defaulted "apiVersion" "" Json.asText = .ok review.apiVersion :=
    Fields.defaulted_written (hget "apiVersion") (Json.readsBack_text _)
  have hkind : fields.defaulted "kind" "" Json.asText = .ok review.kind :=
    Fields.defaulted_written (hget "kind") (Json.readsBack_text _)
  have hrequest : fields.nullable "request" ReviewRequest.ofJson =
      .ok (review.request.map ReviewRequest.withoutNulls) :=
    Fields.nullable_map (hget "request") fun request _ => ⟨nofun, request.ofJson_toJson⟩
  have hresponse : fields.nullable "response" ReviewResponse.ofJson = .ok review.response :=
    Fields.nullable_written (hget "response") fun response hm => ReviewResponse.readsBack (h response hm)
  exact bind_eq_ok.2 ⟨_, hfields, bind_eq_ok.2 ⟨_, hversion, bind_eq_ok.2 ⟨_, hkind,
    bind_eq_ok.2 ⟨_, hrequest, bind_eq_ok.2 ⟨_, hresponse, rfl⟩⟩⟩⟩⟩

theorem withoutNulls_eq_self {review : Review} : review.withoutNulls = review ↔ review.Stated := by
  have hrequest : review.withoutNulls = review ↔
      review.request.map ReviewRequest.withoutNulls = review.request :=
    ⟨congrArg Review.request, fun h => by rw [withoutNulls, h]⟩
  rw [hrequest, Stated]
  cases review.request with
  | none => exact iff_of_true rfl fun _ h => absurd h (Option.not_mem_none _)
  | some request =>
    rw [Option.map_some, Option.some.injEq, ReviewRequest.withoutNulls_eq_self]
    exact ⟨fun h _ hm => Option.mem_some.1 hm ▸ h, fun h => h request rfl⟩

/-- A review that asks a webhook is read back if the options of the request are. -/
theorem stated_ask {request : Request} (h : request.options ≠ some .null) (invocation : Invocation)
    (object oldObject : Option Object) : (ask request invocation object oldObject).Stated := by
  rintro _ ⟨⟩
  exact ⟨by cases object <;> nofun, by cases oldObject <;> nofun, h⟩

end Review

end Admission
