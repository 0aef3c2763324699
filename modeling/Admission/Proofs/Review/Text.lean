import Admission.Proofs.Json.Reread
import Admission.Proofs.Review

/-!
# Reviews are read back of their texts

Of all the fields of a review only the three values of the request may suffer by its text: one that is nested too deep
makes the whole review unreadable, and a double in them may be read as another one.  All else is kept whatever it holds
(`Json.Kept`), so the review that is read of a text is known (`Review.ofText_write`), and it is the one that was written
just if the text carries the values (`Review.Carried`) and none of them is `null`.
-/

namespace Admission

/-! ## 1. The parts -/

open Json (Kept kept_bool kept_str kept_int kept_some kept_map kept_nonempty kept_ofStrings kept_ofDict kept_ofSome
  kept_flat kept_texts readColumn?_kept readColumn?_map readColumn?_any)

section Kept

variable {depth : Nat}

theorem GroupVersionKind.kept_toJson (gvk : GroupVersionKind) :
    Kept (.flat ["group", "version", "kind"]) (depth + 1) gvk.toJson := by
  have hnames : ∀ column ∈ [("group", gvk.group), ("kind", gvk.kind), ("version", gvk.version)],
      column.1 ∈ ["group", "version", "kind"] := by simp
  exact kept_texts hnames

theorem GroupVersionResource.kept_toJson (gvr : GroupVersionResource) :
    Kept (.flat ["group", "version", "resource"]) (depth + 1) gvr.toJson := by
  have hnames : ∀ column ∈ [("group", gvr.group), ("resource", gvr.resource), ("version", gvr.version)],
      column.1 ∈ ["group", "version", "resource"] := by simp
  exact kept_texts hnames

theorem UserInfo.kept_toJson (u : UserInfo) :
    Kept (.flat ["username", "uid", "groups", "extra"]) (depth + 3) u.toJson := by
  refine kept_flat ?_
  simp only [List.forall_mem_cons, List.not_mem_nil, IsEmpty.forall_iff, implies_true, and_true]
  exact ⟨⟨by decide, kept_map fun extra _ => kept_ofDict fun pair _ => kept_ofStrings pair.2⟩,
    ⟨by decide, kept_map fun groups _ => kept_ofStrings groups⟩,
    ⟨by decide, kept_map fun text _ => kept_str _ _ text⟩, ⟨by decide, kept_map fun text _ => kept_str _ _ text⟩⟩

theorem Width.fits_of_fitsSigned {n : Int} (h : Width.fitsSigned 32 n = true) : Width.fits 64 n = true := by
  have hcounts : Width.count 31 = 2147483648 ∧ Width.count 63 = 9223372036854775808 := by decide
  simp only [Width.fits, Width.fitsSigned, Bool.or_eq_true, Bool.and_eq_true, decide_eq_true_eq,
    show 32 - 1 = 31 from rfl, show 64 - 1 = 63 from rfl, hcounts.1, hcounts.2] at h ⊢
  exact .inl (by omega)

theorem Status.kept_toJson {s : Status} (h : Width.fitsSigned 32 s.code) :
    Kept (.flat ["status", "message", "reason", "code"]) (depth + 1) s.toJson := by
  refine kept_flat ?_
  simp only [List.forall_mem_cons, List.not_mem_nil, IsEmpty.forall_iff, implies_true, and_true]
  exact ⟨⟨by decide, kept_some (kept_int (Width.fits_of_fitsSigned h))⟩, ⟨by decide, kept_nonempty _⟩,
    ⟨by decide, kept_nonempty _⟩, ⟨by decide, kept_nonempty _⟩⟩

theorem ReviewResponse.kept_toJson {r : ReviewResponse}
    (h : ∀ status ∈ r.result, Width.fitsSigned 32 status.code) :
    Kept (.record fields) (depth + 2) r.toJson := by
  refine kept_ofSome ?_
  simp only [List.forall_mem_cons, List.not_mem_nil, IsEmpty.forall_iff, implies_true, and_true]
  exact ⟨⟨_, rfl, kept_some (kept_bool _ _ _)⟩,
    ⟨_, rfl, kept_map fun texts _ => kept_ofDict fun pair _ => kept_str _ _ pair.2⟩,
    ⟨_, rfl, kept_map fun bytes _ => kept_str _ _ _⟩, ⟨_, rfl, kept_map fun text _ => kept_str _ _ text⟩,
    ⟨_, rfl, kept_map fun status hs => Status.kept_toJson (h status hs)⟩, ⟨_, rfl, kept_some (kept_str _ _ _)⟩,
    ⟨_, rfl, kept_map fun texts _ => kept_ofStrings texts⟩⟩

end Kept

/-! ## 2. The request -/

namespace ReviewRequest

/-- The values that a request holds. -/
def values (r : ReviewRequest) : List Json := r.object.toList ++ r.oldObject.toList ++ r.options.toList

theorem forall_mem_values {p : Json → Prop} {r : ReviewRequest} : (∀ value ∈ r.values, p value) ↔
    (∀ value ∈ r.object, p value) ∧ (∀ value ∈ r.oldObject, p value) ∧ ∀ value ∈ r.options, p value := by
  rw [values, List.forall_mem_append, List.forall_mem_append, and_assoc]
  simp only [Option.mem_toList]
  rfl

/-- What the text of a request is read as, its values nested at most so deep. -/
def reread? (depth : Nat) (r : ReviewRequest) : Option ReviewRequest := do
  let object ← r.object.mapM (Json.reread? depth)
  let oldObject ← r.oldObject.mapM (Json.reread? depth)
  let options ← r.options.mapM (Json.reread? depth)
  return { r with object, oldObject, options }

/-- **A request is read of its text** with the values that their texts are read as. -/
theorem read?_toJson {r : ReviewRequest} (h : ∀ value ∈ r.values, value.Storable) (depth : Nat) :
    r.toJson.spell.read? (.record fields) (depth + 4) = (r.reread? (depth + 3)).map toJson := by
  obtain ⟨hobject, holdObject, hoptions⟩ := forall_mem_values.1 h
  have kept (key : String) {shape : Json.Shape} {value? : Option Json} (hshape : fields.lookup key = some shape)
      (hvalue : ∀ value ∈ value?, Kept shape (depth + 3) value) :
      Json.readColumn? fields (depth + 3) (key, value?) = some (key, value?) := readColumn?_kept hshape hvalue
  have held (key : String) {value? : Option Json} (hshape : fields.lookup key = some .any)
      (hvalue : ∀ value ∈ value?, value.Storable) :
      Json.readColumn? fields (depth + 3) (key, value?) =
        (value?.mapM (Json.reread? (depth + 3))).map (key, ·) := readColumn?_any hshape hvalue (depth + 3)
  have hdryRun := kept "dryRun" rfl (kept_map fun b (_ : b ∈ r.dryRun) => kept_bool _ _ b)
  have hkind := kept "kind" rfl (kept_some r.kind.kept_toJson)
  have hname := kept "name" rfl (kept_nonempty r.name)
  have hnamespace := kept "namespace" rfl (kept_nonempty r.namespaceName)
  have hobject := held "object" rfl hobject
  have holdObject := held "oldObject" rfl holdObject
  have hoperation := kept "operation" rfl (kept_some (kept_str _ _ r.operation.text))
  have hoptions := held "options" rfl hoptions
  have hrequestKind := kept "requestKind" rfl
    (kept_map fun gvk (_ : gvk ∈ r.requestKind) => gvk.kept_toJson)
  have hrequestResource := kept "requestResource" rfl
    (kept_map fun gvr (_ : gvr ∈ r.requestResource) => gvr.kept_toJson)
  have hrequestSubresource := kept "requestSubResource" rfl (kept_nonempty r.requestSubresource)
  have hresource := kept "resource" rfl (kept_some r.resource.kept_toJson)
  have hsubresource := kept "subResource" rfl (kept_nonempty r.subresource)
  have huid := kept "uid" rfl (kept_some (kept_str _ _ r.uid))
  have huserInfo := kept "userInfo" rfl (kept_some r.userInfo.kept_toJson)
  refine (Json.read?_ofSome ?_ _).trans ?_
  · simp only [List.forall_mem_cons, List.not_mem_nil, IsEmpty.forall_iff, implies_true, and_true]
    decide
  simp only [List.mapM_cons, List.mapM_nil, hdryRun, hkind, hname, hnamespace, hobject, holdObject, hoperation,
    hoptions, hrequestKind, hrequestResource, hrequestSubresource, hresource, hsubresource, huid, huserInfo]
  rw [reread?]
  cases r.object.mapM (Json.reread? (depth + 3)) with
  | none => rfl
  | some object =>
    cases r.oldObject.mapM (Json.reread? (depth + 3)) with
    | none => rfl
    | some oldObject => cases r.options.mapM (Json.reread? (depth + 3)) <;> rfl

/-- A value comes back just if it is not `null` and is read as itself. -/
theorem mapM_filter_eq_self_iff {depth : Nat} {value? : Option Json} :
    (value?.mapM (Json.reread? depth)).map (·.filter (· ≠ .null)) = some value? ↔
      value? ≠ some .null ∧ ∀ value ∈ value?, value.reread? depth = some value := by
  cases value? with
  | none => exact iff_of_true rfl ⟨nofun, nofun⟩
  | some value =>
    cases hread : value.reread? depth with
    | none => simp [Option.mapM, hread]
    | some read => simp [Option.mapM, hread, and_comm]

theorem reread?_eq_self_iff {r : ReviewRequest} {depth : Nat} :
    (r.reread? depth).map withoutNulls = some r ↔
      r.Stated ∧ ∀ value ∈ r.values, value.reread? depth = some value := by
  have hparts : (r.reread? depth).map withoutNulls = some r ↔
      (r.object.mapM (Json.reread? depth)).map (·.filter (· ≠ .null)) = some r.object ∧
      (r.oldObject.mapM (Json.reread? depth)).map (·.filter (· ≠ .null)) = some r.oldObject ∧
      (r.options.mapM (Json.reread? depth)).map (·.filter (· ≠ .null)) = some r.options := by
    rw [reread?]
    cases r.object.mapM (Json.reread? depth) with
    | none => simp
    | some object =>
      cases r.oldObject.mapM (Json.reread? depth) with
      | none => simp
      | some oldObject =>
        cases r.options.mapM (Json.reread? depth) with
        | none => simp
        | some options =>
          simp only [Option.map_some, Option.some.injEq]
          constructor
          · intro h
            have h := Option.some.inj h
            exact ⟨congrArg ReviewRequest.object h, congrArg ReviewRequest.oldObject h,
              congrArg ReviewRequest.options h⟩
          · rintro ⟨hobject, holdObject, hoptions⟩
            show some { r with object := object.filter _, oldObject := _, options := _ } = _
            rw [hobject, holdObject, hoptions]
  rw [hparts, mapM_filter_eq_self_iff, mapM_filter_eq_self_iff, mapM_filter_eq_self_iff, forall_mem_values]
  constructor
  · rintro ⟨⟨hobject, hread⟩, ⟨holdObject, hreadOld⟩, hoptions, hreadOptions⟩
    exact ⟨⟨hobject, holdObject, hoptions⟩, hread, hreadOld, hreadOptions⟩
  · rintro ⟨⟨hobject, holdObject, hoptions⟩, hread, hreadOld, hreadOptions⟩
    exact ⟨⟨hobject, hread⟩, ⟨holdObject, hreadOld⟩, hoptions, hreadOptions⟩

end ReviewRequest

/-! ## 3. The review -/

namespace Review

/-- The values that a review holds. -/
def values (review : Review) : List Json := review.request.toList.flatMap ReviewRequest.values

/-- What the text of a review is read as: its values stand two levels in it. -/
def reread? (review : Review) : Option Review := do
  let request ← review.request.mapM (ReviewRequest.reread? (Json.maxDepth - 2))
  return { review with request }

/-- **A review is read of its text** with the values that their texts are read as. -/
theorem read?_toJson {review : Review} (hfits : review.FitsWidths) (h : ∀ value ∈ review.values, value.Storable) :
    review.toJson.spell.read? (.record fields) Json.maxDepth = review.reread?.map toJson := by
  have hvalues : ∀ request ∈ review.request, ∀ value ∈ request.values, value.Storable := fun request hm value hv =>
    h value (List.mem_flatMap.2 ⟨request, Option.mem_toList.2 hm, hv⟩)
  -- Of `Json.maxDepth` levels the review takes one, so 126 are left to its fields, and the request takes another.
  have hversion : Json.readColumn? fields 126 ("apiVersion", some (.str review.apiVersion)) = some _ :=
    readColumn?_kept rfl (kept_some (kept_str _ _ review.apiVersion))
  have hkind : Json.readColumn? fields 126 ("kind", some (.str review.kind)) = some _ :=
    readColumn?_kept rfl (kept_some (kept_str _ _ review.kind))
  have hrequest : Json.readColumn? fields 126 ("request", review.request.map ReviewRequest.toJson) = _ :=
    readColumn?_map rfl fun request hm => ReviewRequest.read?_toJson (hvalues request hm) 122
  have hresponse : Json.readColumn? fields 126 ("response", review.response.map ReviewResponse.toJson) = some _ :=
    readColumn?_kept rfl (kept_map fun response hm => ReviewResponse.kept_toJson (hfits response hm))
  refine (Json.read?_ofSome ?_ _).trans ?_
  · simp only [List.forall_mem_cons, List.not_mem_nil, IsEmpty.forall_iff, implies_true, and_true]
    decide
  simp only [List.mapM_cons, List.mapM_nil, hversion, hkind, hrequest, hresponse]
  rw [reread?]
  cases hread : review.request.mapM (ReviewRequest.reread? 125) with
  | none => simp [Json.maxDepth, hread]
  | some request => simp [Json.maxDepth, hread]; rfl

/-- **The text of the review carries its values**: none is nested too deep, and each double in them is read as
itself. -/
def Carried (review : Review) : Prop :=
  ∀ value ∈ review.values, value.height ≤ Json.maxDepth - 2 ∧
    ∀ bits ∈ value.doublesIn, Json.rereadDouble? bits = some bits

/-- What is read of the text of a review. -/
theorem ofText_write {review : Review} (hfits : review.FitsWidths) (h : ∀ value ∈ review.values, value.Storable) :
    ofText review.toJson.write =
      match review.reread? with
      | some reread => .ok reread.withoutNulls
      | none => .error .malformed := by
  rw [ofText, ofChars, Json.readChars?_write, read?_toJson hfits h]
  cases hread : review.reread? with
  | none => rfl
  | some reread =>
    obtain ⟨request, -, rfl⟩ : ∃ request, _ = some request ∧ { review with request } = reread := by
      obtain ⟨request, hrequest, hreread⟩ := Option.bind_eq_some_iff.1 hread
      exact ⟨request, hrequest, Option.some.inj hreread⟩
    have hreread : FitsWidths { review with request } := hfits
    exact ofJson_toJson hreread

theorem reread?_eq_self_iff {review : Review} :
    review.reread?.map withoutNulls = some review ↔ review.Stated ∧ review.Carried := by
  have hrequest : review.reread?.map withoutNulls = some review ↔
      (review.request.mapM (ReviewRequest.reread? (Json.maxDepth - 2))).map (·.map ReviewRequest.withoutNulls) =
        some review.request := by
    rw [reread?]
    cases review.request.mapM (ReviewRequest.reread? (Json.maxDepth - 2)) with
    | none => simp
    | some request =>
      simp only [Option.map_some, Option.some.injEq]
      refine ⟨fun h => congrArg Review.request (Option.some.inj h), fun h => ?_⟩
      show some { review with request := request.map _ } = _
      rw [h]
  rw [hrequest, Stated, Carried, values]
  cases review.request with
  | none => simp
  | some request =>
    have hself : ((some request).mapM (ReviewRequest.reread? (Json.maxDepth - 2))).map
        (·.map ReviewRequest.withoutNulls) = some (some request) ↔
          (request.reread? (Json.maxDepth - 2)).map ReviewRequest.withoutNulls = some request := by
      cases hread : request.reread? (Json.maxDepth - 2) <;> simp [Option.mapM, hread]
    rw [hself, ReviewRequest.reread?_eq_self_iff]
    simp [Json.reread?_eq_self_iff]

theorem ofText_write_eq_ok_iff {review : Review} (hfits : review.FitsWidths)
    (h : ∀ value ∈ review.values, value.Storable) :
    ofText review.toJson.write = .ok review ↔ review.Stated ∧ review.Carried := by
  rw [ofText_write hfits h, ← reread?_eq_self_iff]
  cases review.reread? with
  | none => exact iff_of_false nofun nofun
  | some reread => rw [Option.map_some, Option.some.injEq, Except.ok.injEq]

/-- **Reviews are read back as they were written**.  As values they are if and only if no value in them is `null`; one
that is, is read as absent, and nothing else is changed.  As texts they are if also no value in them is nested too deep
and each double is read as itself; else a review is refused or read with other doubles, and nothing else is changed.  So
a review that asks a webhook comes back unless the options of the request are `null`, and its text if that carries its
values. -/
theorem reviews_are_read_back :
    (∀ review : Review, review.FitsWidths →
      ofJson review.toJson = .ok review.withoutNulls ∧
      (ofJson review.toJson = .ok review ↔ review.Stated)) ∧
    (∀ review : Review, review.FitsWidths → (∀ value ∈ review.values, value.Storable) →
      ofText review.toJson.write =
        (match review.reread? with
        | some reread => .ok reread.withoutNulls
        | none => .error .malformed) ∧
      (ofText review.toJson.write = .ok review ↔ review.Stated ∧ review.Carried)) ∧
    ∀ (request : Request) (invocation : Invocation) (object oldObject : Option Object),
      request.options ≠ some .null →
      ofJson (ask request invocation object oldObject).toJson =
        .ok (ask request invocation object oldObject) ∧
      ((∀ value ∈ (ask request invocation object oldObject).values, value.Storable) →
        (ofText (ask request invocation object oldObject).toJson.write =
            .ok (ask request invocation object oldObject) ↔
          (ask request invocation object oldObject).Carried)) := by
  have hback : ∀ review : Review, review.FitsWidths →
      (ofJson review.toJson = .ok review ↔ review.Stated) := fun review h => by
    rw [ofJson_toJson h, Except.ok.injEq, withoutNulls_eq_self]
  refine ⟨fun review h => ⟨ofJson_toJson h, hback review h⟩,
    fun review h hvalues => ⟨ofText_write h hvalues, ofText_write_eq_ok_iff h hvalues⟩, ?_⟩
  intro request invocation object oldObject hoptions
  have hfits : (ask request invocation object oldObject).FitsWidths :=
    fun _ h => absurd h (Option.not_mem_none _)
  have hstated := stated_ask hoptions invocation object oldObject
  refine ⟨(hback _ hfits).2 hstated, fun hvalues => ?_⟩
  rw [ofText_write_eq_ok_iff hfits hvalues, and_iff_right hstated]

/-- The deletion of a pod, with options or without any. -/
def podDeletion (options : Option Json) : Request where
  uid := "req-uid"
  kind := ⟨"", "v1", "Pod"⟩
  resource := ⟨"", "v1", "pods"⟩
  operation := .delete
  name := "web"
  options := options

/-- The review that asks about it. -/
def deletionReview (options : Option Json) : Review :=
  ask (podDeletion options) ⟨.bare "guard" .validating, ⟨"", "v1", "pods"⟩, "", ⟨"", "v1", "Pod"⟩⟩
    none none

/-- A review in which all that may be empty is there and empty, and `null` and the double `1.5` stand inside a value. -/
def hollow : Review where
  apiVersion := ""
  kind := ""
  request := some {
    uid := ""
    kind := ⟨"", "", ""⟩
    resource := ⟨"", "", ""⟩
    operation := .update
    userInfo := { username := some "", groups := some [], extra := some ∅ }
    object := some (.obj [("spec", .null), ("status", .arr [.int (-1), .double 4609434218613702656])])
    dryRun := some false }
  response := some {
    result := some ⟨"", "", "", -1⟩
    patch := some []
    patchType := some ""
    auditAnnotations := some ∅
    warnings := some [] }

theorem fitsWidths_hollow : hollow.FitsWidths := by
  rintro _ ⟨⟩ _ ⟨⟩
  decide

theorem storable_hollow : ∀ value ∈ hollow.values, value.Storable := by
  have hstatus : Json.Storable (.arr [.int (-1), .double 4609434218613702656]) :=
    .arr (List.forall_mem_cons.2 ⟨.int (by decide), List.forall_mem_singleton.2 (.double (by decide))⟩)
  refine List.forall_mem_singleton.2 (.obj ?_ (List.forall_mem_cons.2 ⟨.null, List.forall_mem_singleton.2 hstatus⟩))
  exact List.pairwise_pair.2 (by decide)

theorem carried_hollow : hollow.Carried := by
  refine List.forall_mem_singleton.2 ⟨by decide, List.forall_mem_singleton.2 ?_⟩
  decide +kernel

/-- What is there and empty is read back as that, of the text too, and only options that are `null` are not. -/
theorem reviews_are_read_back_hollow :
    ofJson hollow.toJson = .ok hollow ∧
    ofText hollow.toJson.write = .ok hollow ∧
    ofJson (deletionReview none).toJson = .ok (deletionReview none) ∧
    ofText (deletionReview none).toJson.write = .ok (deletionReview none) ∧
    ofJson (deletionReview (some .null)).toJson ≠ .ok (deletionReview (some .null)) := by
  have hstated : hollow.Stated := by
    rintro _ ⟨⟩
    exact ⟨nofun, nofun, nofun⟩
  have hnofits : (deletionReview (some .null)).FitsWidths := fun _ h => absurd h (Option.not_mem_none _)
  have hempty : (deletionReview none).values = [] := rfl
  obtain ⟨hvalue, htext, hask⟩ := reviews_are_read_back
  obtain ⟨hdeletion, hdeletionText⟩ := hask (podDeletion none)
    ⟨.bare "guard" .validating, ⟨"", "v1", "pods"⟩, "", ⟨"", "v1", "Pod"⟩⟩ none none nofun
  refine ⟨(hvalue hollow fitsWidths_hollow).2.2 hstated,
    (htext hollow fitsWidths_hollow storable_hollow).2.2 ⟨hstated, carried_hollow⟩, hdeletion,
    (hdeletionText ?_).2 ?_, fun h => ?_⟩
  · exact fun value hm => absurd (hempty ▸ hm) List.not_mem_nil
  · exact fun value hm => absurd (hempty ▸ hm) List.not_mem_nil
  · exact (((hvalue _ hnofits).2.1 h) _ rfl).options rfl

/-- Arrays nested so deep. -/
def nested : Nat → Json
  | 0 => .null
  | depth + 1 => .arr [nested depth]

theorem storable_nested (depth : Nat) : (nested depth).Storable := by
  induction depth with
  | zero => exact .null
  | succ depth ih => exact .arr (List.forall_mem_singleton.2 ih)

theorem reread?_nested (depth : Nat) : (nested (depth + 1)).reread? depth = none := by
  induction depth with
  | zero => rfl
  | succ depth ih =>
    rw [nested, Json.reread?, if_neg (Nat.succ_ne_zero depth), Nat.add_sub_cancel, Json.rereadItems?, ih]
    rfl

theorem reread?_deletionReview (options : Json) : (deletionReview (some options)).reread? =
    (options.reread? (Json.maxDepth - 2)).map fun read => deletionReview (some read) := by
  cases hread : options.reread? (Json.maxDepth - 2) <;>
    simp [reread?, ReviewRequest.reread?, deletionReview, ask, podDeletion, Option.mapM, hread]

/-- **Not every review is read back of its text.**  The double that is written `0.9470521984190127` is read as the next
greater one, and a value with 126 arrays in one another is refused. -/
theorem double_or_depth_is_lost :
    (deletionReview (some (.double 4606705507401076965))).Stated ∧
    ofText (deletionReview (some (.double 4606705507401076965))).toJson.write =
      .ok (deletionReview (some (.double 4606705507401076966))) ∧
    (deletionReview (some (nested 126))).Stated ∧
    ofText (deletionReview (some (nested 126))).toJson.write = .error .malformed := by
  have hfits : ∀ options, (deletionReview (some options)).FitsWidths :=
    fun _ _ h => absurd h (Option.not_mem_none _)
  have hstated : ∀ options, options ≠ .null → (deletionReview (some options)).Stated := fun options h =>
    stated_ask (show some options ≠ some .null from fun heq => h (Option.some.inj heq)) _ none none
  have hdouble : Json.rereadDouble? 4606705507401076965 = some 4606705507401076966 := by decide +kernel
  have hdeep : (nested 126).reread? (Json.maxDepth - 2) = none := reread?_nested 125
  refine ⟨hstated _ nofun, ?_, hstated _ nofun, ?_⟩
  · rw [ofText_write (hfits _) (List.forall_mem_singleton.2 (.double (by decide))), reread?_deletionReview,
      Json.reread?, hdouble]
    rfl
  · rw [ofText_write (hfits _) (List.forall_mem_singleton.2 (storable_nested 126)), reread?_deletionReview,
      hdeep]
    rfl

end Review

end Admission
