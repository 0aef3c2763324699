import Admission.Object.Basic
import Admission.Proofs.Json.Proper
import Admission.Proofs.Results

/-!
# Reading and writing objects

What is read of an object and of its metadata depends on nothing but the view of their fields
(`ofJson_eq_ok`, `ObjectMeta.read_eq_ok`).  An object read from a proper value (`Object.Legible`) holds
proper values only, and is written as a proper value (`Object.Proper.toJson`).
-/

namespace Admission

/-! ## 1. metadata -/

namespace Fields

variable {α : Type} {item : Json → Decoded α} {fields other : Fields Json} {key : String}

theorem nullable_of_get? (h : fields.get? key = other.get? key) :
    fields.nullable key item = other.nullable key item := by
  unfold nullable
  rw [h]

theorem exists_of_nullable {a : α} (h : fields.nullable key item = .ok (some a)) :
    ∃ value, fields.get? key = some value ∧ item value = .ok a := by
  unfold nullable at h
  split at h
  · rename_i value hvalue
    refine ⟨value, hvalue, ?_⟩
    unfold Json.orNull at h
    split at h
    · cases h
    · cases hi : item value with
      | error e => rw [hi] at h; cases h
      | ok b => rw [hi] at h; cases h; rfl
  · cases h

end Fields

namespace ObjectMeta

/-- The metadata are what each field says. -/
structure ReadFrom (prepare : Json → Json) (fields : Fields Json) (m : ObjectMeta) : Prop where
  annotations : fields.nullable "annotations" (Json.asDict Json.asText) = .ok m.annotations
  creationTimestamp :
    fields.nullable "creationTimestamp" Json.asInstant = .ok m.creationTimestamp
  deletionGracePeriodSeconds :
    fields.nullable "deletionGracePeriodSeconds" Json.asInt64 = .ok m.deletionGracePeriodSeconds
  deletionTimestamp :
    fields.nullable "deletionTimestamp" Json.asInstant = .ok m.deletionTimestamp
  finalizers : fields.nullable "finalizers" (Json.asList Json.asText) = .ok m.finalizers
  generateName : fields.nullable "generateName" Json.asText = .ok m.generateName
  generation : fields.nullable "generation" Json.asInt64 = .ok m.generation
  labels : fields.nullable "labels" (Json.asDict Json.asText) = .ok m.labels
  managedFields : fields.nullable "managedFields"
    (Json.asList fun item => ManagedFields.ofJson (prepare item)) = .ok m.managedFields
  name : fields.nullable "name" Json.asText = .ok m.name
  namespaceName : fields.nullable "namespace" Json.asText = .ok m.namespaceName
  ownerReferences : fields.nullable "ownerReferences"
    (Json.asList fun item => OwnerReference.ofJson (prepare item)) = .ok m.ownerReferences
  resourceVersion : fields.nullable "resourceVersion" Json.asText = .ok m.resourceVersion
  selfLink : fields.nullable "selfLink" Json.asText = .ok m.selfLink
  uid : fields.nullable "uid" Json.asText = .ok m.uid

theorem read_obj {prepare : Json → Json} {fields : Fields Json} {m : ObjectMeta} :
    read prepare (.obj fields) = .ok m ↔ ReadFrom prepare fields m := by
  constructor
  · intro h
    unfold read at h
    simp only [bind_eq_ok, Json.asFields, pure, Except.pure, Except.ok.injEq] at h
    obtain ⟨_, rfl, _, h1, _, h2, _, h3, _, h4, _, h5, _, h6, _, h7, _, h8, _, h9, _, h10, _, h11,
      _, h12, _, h13, _, h14, _, h15, rfl⟩ := h
    exact ⟨h1, h2, h3, h4, h5, h6, h7, h8, h9, h10, h11, h12, h13, h14, h15⟩
  · rintro ⟨h1, h2, h3, h4, h5, h6, h7, h8, h9, h10, h11, h12, h13, h14, h15⟩
    unfold read
    simp only [bind_eq_ok, Json.asFields, pure, Except.pure, Except.ok.injEq]
    exact ⟨_, rfl, _, h1, _, h2, _, h3, _, h4, _, h5, _, h6, _, h7, _, h8, _, h9, _, h10, _, h11,
      _, h12, _, h13, _, h14, _, h15, rfl⟩

/-- **Metadata are read from an object, each field by itself.** -/
theorem read_eq_ok {prepare : Json → Json} {value : Json} {m : ObjectMeta} :
    read prepare value = .ok m ↔ ∃ fields, value = .obj fields ∧ ReadFrom prepare fields m := by
  constructor
  · intro h
    cases value with
    | obj fields => exact ⟨fields, rfl, read_obj.1 h⟩
    | _ => cases h
  · rintro ⟨fields, rfl, h⟩
    exact read_obj.2 h

end ObjectMeta

/-! ## 2. objects -/

namespace Object

theorem ofJson_eq_ok {value : Json} {o : Object} :
    ofJson value = .ok o ↔ ∃ fields, value = .obj fields ∧
      (Dict.ofFields fields).fields.defaulted "metadata" {} ObjectMeta.ofJson = .ok o.metadata ∧
      takeTypes ((Dict.ofFields fields).erase "metadata") = (o.types, o.data) := by
  constructor
  · intro h
    cases value with
    | obj fields =>
      obtain ⟨_, hfields, h⟩ := bind_eq_ok.1 h
      cases hfields
      obtain ⟨m, hm, h⟩ := bind_eq_ok.1 h
      cases h
      exact ⟨fields, rfl, hm, rfl⟩
    | _ => cases h
  · rintro ⟨fields, rfl, hm, ht⟩
    refine bind_eq_ok.2 ⟨fields, rfl, bind_eq_ok.2 ⟨o.metadata, hm, ?_⟩⟩
    rw [ht]
    rfl

theorem mem_takeTypes {fields data : Dict Json} {types : Option TypeMeta} {pair : String × Json}
    (h : takeTypes fields = (types, data)) (hm : pair ∈ data.fields) : pair ∈ fields.fields := by
  have herase : ∀ {key : String} {d : Dict Json}, pair ∈ (d.erase key).fields → pair ∈ d.fields :=
    fun hm => (List.mem_filter.1 hm).1
  unfold takeTypes at h
  split at h
  · cases h; exact herase (herase hm)
  · cases h; exact herase (herase hm)
  · cases h; exact herase hm
  · cases h; exact herase hm

end Object

/-! ## 3. proper objects -/

/-- The values in the metadata are proper. -/
def ObjectMeta.Proper (m : ObjectMeta) : Prop :=
  ∀ list, m.managedFields = some list → ∀ entry ∈ list, ∀ value, entry.fieldsV1 = some value →
    value.Proper

/-- **All values in an object are proper.** -/
structure Object.Proper (o : Object) : Prop where
  metadata : o.metadata.Proper
  data : ∀ pair ∈ o.data.fields, pair.2.Proper

namespace Json

theorem sorted_ofSome {fields : List (String × Option Json)}
    (hkeys : (fields.map (·.1)).Pairwise (· < ·)) :
    Fields.Sorted (fields.filterMap fun (key, value?) => value?.map (key, ·)) := by
  rw [Fields.Sorted, List.pairwise_filterMap]
  rw [List.pairwise_map] at hkeys
  refine hkeys.imp ?_
  rintro ⟨k, v⟩ ⟨l, w⟩ hlt b hb c hc
  obtain ⟨v', -, rfl⟩ := Option.map_eq_some_iff.1 hb
  obtain ⟨w', -, rfl⟩ := Option.map_eq_some_iff.1 hc
  exact hlt

theorem proper_ofSome {fields : List (String × Option Json)}
    (hkeys : (fields.map (·.1)).Pairwise (· < ·))
    (hvalues : ∀ pair ∈ fields, ∀ value ∈ pair.2, value.Proper) :
    (Json.ofSome fields).Proper := by
  refine .obj (sorted_ofSome hkeys) fun pair hm => ?_
  obtain ⟨⟨key, value?⟩, hin, hpair⟩ := List.mem_filterMap.1 hm
  obtain ⟨value, hv, rfl⟩ := Option.map_eq_some_iff.1 hpair
  exact hvalues _ hin value hv

theorem field?_ofSome {fields : List (String × Option Json)}
    (h : (fields.map (·.1)).Pairwise (· < ·)) (key : String) :
    (ofSome fields).field? key = (Fields.get? key fields).join := by
  unfold ofSome field?
  dsimp only
  induction fields with
  | nil => rfl
  | cons pair rest ih =>
    obtain ⟨k, value?⟩ := pair
    obtain ⟨hhead, hrest⟩ := List.pairwise_cons.1 h
    have hbelow : Fields.get? k rest = none := by
      rw [Fields.get?_eq_none_iff]
      exact fun other hm heq =>
        String.lt_irrefl k (by simpa [heq] using hhead other.1 (List.mem_map_of_mem hm))
    cases value? with
    | none =>
      simp only [List.filterMap_cons, Option.map_none, Fields.get?]
      rw [ih hrest]
      split
      · rename_i hk
        rw [← hk, hbelow]
        rfl
      · rfl
    | some value =>
      simp only [List.filterMap_cons, Option.map_some, Fields.get?]
      split
      · rfl
      · exact ih hrest

theorem proper_ofStrings (texts : List String) : (ofStrings texts).Proper :=
  .arr fun item hi => by
    obtain ⟨text, -, rfl⟩ := List.mem_map.1 hi
    exact .str text

theorem proper_ofTexts (texts : Dict String) : (ofTexts texts).Proper :=
  .obj (texts.map Json.str).sorted fun pair hm => by
    obtain ⟨⟨key, text⟩, -, rfl⟩ := List.mem_map.1 hm
    exact .str text

end Json

section Writing

open Json (proper_ofSome)

theorem Json.proper_some {value : Json} (h : value.Proper) : ∀ v ∈ some value, v.Proper :=
  fun v hv => by cases hv; exact h

theorem Json.proper_map {α : Type} {write : α → Json} {value? : Option α}
    (h : ∀ a, value? = some a → (write a).Proper) : ∀ v ∈ value?.map write, v.Proper := by
  intro v hv
  obtain ⟨a, ha, rfl⟩ := Option.map_eq_some_iff.1 hv
  exact h a ha

theorem OwnerReference.proper_toJson (r : OwnerReference) : r.toJson.Proper := by
  refine proper_ofSome (by simp only [List.map_cons, List.map_nil]; decide) ?_
  simp only [List.forall_mem_cons, List.not_mem_nil, IsEmpty.forall_iff, implies_true,
    and_true]
  exact ⟨Json.proper_some (.str _), Json.proper_map fun b _ => .bool b,
    Json.proper_map fun b _ => .bool b, Json.proper_some (.str _), Json.proper_some (.str _),
    Json.proper_some (.str _)⟩

theorem ManagedFields.proper_toJson {m : ManagedFields}
    (h : ∀ value, m.fieldsV1 = some value → value.Proper) : m.toJson.Proper := by
  refine proper_ofSome (by simp only [List.map_cons, List.map_nil]; decide) ?_
  simp only [List.forall_mem_cons, List.not_mem_nil, IsEmpty.forall_iff, implies_true,
    and_true]
  exact ⟨Json.proper_map fun s _ => .str s, Json.proper_map fun s _ => .str s, h,
    Json.proper_map fun s _ => .str s, Json.proper_map fun s _ => .str s,
    Json.proper_map fun s _ => .str s, Json.proper_map fun t _ => .str t.text⟩

theorem ObjectMeta.Proper.toJson {m : ObjectMeta} (h : m.Proper) : m.toJson.Proper := by
  have htext : ∀ {s? : Option String}, ∀ v ∈ s?.map Json.str, v.Proper :=
    Json.proper_map fun s _ => .str s
  have hint : ∀ {n? : Option Int}, ∀ v ∈ n?.map Json.int, v.Proper :=
    Json.proper_map fun n _ => .int n
  have htime : ∀ {t? : Option Time.Instant}, ∀ v ∈ t?.map (fun t => Json.str t.text), v.Proper :=
    Json.proper_map fun t _ => .str t.text
  have htexts : ∀ {d? : Option (Dict String)}, ∀ v ∈ d?.map Json.ofTexts, v.Proper :=
    Json.proper_map fun d _ => Json.proper_ofTexts d
  refine proper_ofSome (by simp only [List.map_cons, List.map_nil]; decide) ?_
  simp only [List.forall_mem_cons, List.not_mem_nil, IsEmpty.forall_iff, implies_true,
    and_true]
  refine ⟨htexts, htime, hint, htime, Json.proper_map fun l _ => Json.proper_ofStrings l, htext,
    hint, htexts, Json.proper_map fun list hlist => ?_, htext, htext,
    Json.proper_map fun list _ => ?_, htext, htext, htext⟩
  · refine .arr fun item hi => ?_
    obtain ⟨entry, he, rfl⟩ := List.mem_map.1 hi
    exact ManagedFields.proper_toJson (h list hlist entry he)
  · refine .arr fun item hi => ?_
    obtain ⟨r, -, rfl⟩ := List.mem_map.1 hi
    exact r.proper_toJson

/-- **A proper object is written as a proper value.** -/
theorem Object.Proper.toJson {o : Object} (h : o.Proper) : o.toJson.Proper := by
  refine .obj o.fields.sorted fun pair hm => ?_
  rcases List.mem_append.1 (Fields.mem_of_mem_sort hm) with hm | hm
  · cases ht : o.types with
    | none => rw [ht] at hm; cases hm
    | some types =>
      rw [ht] at hm
      rcases List.mem_cons.1 hm with rfl | hm
      · exact .str _
      · rw [List.mem_singleton.1 hm]
        exact .str _
  · rcases List.mem_cons.1 hm with rfl | hm
    · exact h.metadata.toJson
    · exact h.data pair hm

end Writing

section Reading

open Json (keeps_arr_iff keeps_obj_iff)

theorem ManagedFields.proper_of_ofJson {value : Json} {m : ManagedFields} (hv : value.Proper)
    (h : ofJson value = .ok m) : ∀ v, m.fieldsV1 = some v → v.Proper := by
  unfold ofJson at h
  simp only [bind_eq_ok, pure, Except.pure, Except.ok.injEq] at h
  obtain ⟨fields, hfields, _, -, _, -, fieldsV1, h3, _, -, _, -, _, -, _, -, rfl⟩ := h
  intro v hs
  have hobj : value = .obj fields := by
    cases value <;> cases hfields
    rfl
  subst hobj
  obtain rfl : fieldsV1 = some v := hs
  obtain ⟨found, hfound, hsame⟩ := Fields.exists_of_nullable h3
  cases hsame
  exact (keeps_obj_iff.1 hv).2 _ (Fields.mem_of_get? hfound)

theorem ObjectMeta.proper_of_read {value : Json} {m : ObjectMeta} (hv : value.Proper)
    (h : ObjectMeta.ofJson value = .ok m) : m.Proper := by
  obtain ⟨fields, rfl, hread⟩ := ObjectMeta.read_eq_ok.1 h
  intro list hlist entry he
  have hm := hread.managedFields
  rw [hlist] at hm
  obtain ⟨found, hfound, hitems⟩ := Fields.exists_of_nullable hm
  have hproper := (keeps_obj_iff.1 hv).2 _ (Fields.mem_of_get? hfound)
  cases found with
  | arr items =>
    obtain ⟨item, hi, hitem⟩ := exists_of_mapM_eq_ok hitems he
    exact ManagedFields.proper_of_ofJson (keeps_arr_iff.1 hproper item hi) hitem
  | _ => cases hitems

theorem Object.exists_metadata_of_ofJson {fields : List (String × Json)} {o : Object}
    (hv : (Json.obj fields).Proper) (h : Object.ofJson (.obj fields) = .ok o) :
    ∃ value, value.Proper ∧ ObjectMeta.ofJson value = .ok o.metadata := by
  obtain ⟨_, heq, hmeta, -⟩ := Object.ofJson_eq_ok.1 h
  cases heq
  unfold Fields.defaulted at hmeta
  split at hmeta
  · rename_i found hfound
    have hin := Fields.mem_of_mem_sort (Fields.mem_of_get? hfound)
    exact ⟨found, (keeps_obj_iff.1 hv).2 _ hin, hmeta⟩
  · refine ⟨.obj [], .obj List.Pairwise.nil (List.forall_mem_nil _), ?_⟩
    rw [← Except.ok.inj hmeta]
    rfl

/-- **An object that was read**: its metadata were, its values are proper, and among its other fields
there are no metadata and no version. -/
structure Object.Legible (o : Object) : Prop where
  metadata : ∃ value, value.Proper ∧ ObjectMeta.ofJson value = .ok o.metadata
  data : ∀ pair ∈ o.data.fields, pair.2.Proper
  withoutMetadata : o.data.get? "metadata" = none
  withoutVersion : o.data.get? "apiVersion" = none

theorem Object.Legible.proper {o : Object} (h : o.Legible) : o.Proper := by
  obtain ⟨value, hv, hread⟩ := h.metadata
  exact ⟨ObjectMeta.proper_of_read hv hread, h.data⟩

theorem Object.get?_version_of_takeTypes {fields data : Dict Json} {types : Option TypeMeta}
    (h : takeTypes fields = (types, data)) : data.get? "apiVersion" = none := by
  unfold takeTypes at h
  split at h
  · cases h
    rw [Dict.get?_erase, Dict.get?_erase, if_pos rfl, ite_self]
  · cases h
    rw [Dict.get?_erase, Dict.get?_erase, if_pos rfl, ite_self]
  · cases h
    rw [Dict.get?_erase, if_pos rfl]
  · rename_i hnone
    cases h
    rw [Dict.get?_erase, hnone, ite_self]

/-- **What is read of a proper value is an object that was read.** -/
theorem Object.legible_of_ofJson {value : Json} {o : Object} (hv : value.Proper)
    (h : Object.ofJson value = .ok o) : o.Legible := by
  obtain ⟨fields, rfl, -, htypes⟩ := Object.ofJson_eq_ok.1 h
  have hin : ∀ pair ∈ o.data.fields, pair ∈ ((Dict.ofFields fields).erase "metadata").fields :=
    fun pair hm => Object.mem_takeTypes htypes hm
  refine ⟨Object.exists_metadata_of_ofJson hv h, fun pair hm => ?_, ?_,
    Object.get?_version_of_takeTypes htypes⟩
  · exact (keeps_obj_iff.1 hv).2 pair (Fields.mem_of_mem_sort (List.mem_filter.1 (hin pair hm)).1)
  · refine Fields.get?_eq_none_iff.2 fun pair hm => ?_
    simpa using (List.mem_filter.1 (hin pair hm)).2

end Reading

/-! ## 4. what is written of an object -/

namespace Object

section Written

variable {o : Object}

/-- What is written under a key: a field of the data, else the metadata, else a part of the kind. -/
theorem get?_fields (o : Object) (key : String) : Fields.get? key o.fields.fields =
    ((o.data.get? key).or (if key = "metadata" then some o.metadata.toJson else none)).or
      (if key = "kind" then o.types.map fun types => .str types.kind
        else if key = "apiVersion" then o.types.map fun types => .str types.apiVersion else none) := by
  have hdata : Fields.get? key o.data.fields.reverse = o.data.get? key := by
    rw [← Fields.get?_sort, o.data.sorted.sort_eq]
    rfl
  show Fields.get? key (Fields.sort (_ ++ ("metadata", o.metadata.toJson) :: o.data.fields)) = _
  rw [Fields.get?_sort, List.reverse_append, List.reverse_cons, Fields.get?_append,
    Fields.get?_append, hdata]
  congr 1
  · congr 1
    simp [Fields.get?, eq_comm]
  · cases o.types with
    | none => simp
    | some types => simp [Fields.get?, eq_comm]

theorem get?_fields_metadata (h : o.Legible) :
    Fields.get? "metadata" o.fields.fields = some o.metadata.toJson := by
  rw [get?_fields, h.withoutMetadata]
  rfl

theorem get?_fields_version (h : o.Legible) : Fields.get? "apiVersion" o.fields.fields =
    o.types.map fun types => .str types.apiVersion := by
  rw [get?_fields, h.withoutVersion]
  rfl

theorem get?_fields_kind (o : Object) : Fields.get? "kind" o.fields.fields =
    (o.data.get? "kind").or (o.types.map fun types => .str types.kind) := by
  rw [get?_fields]
  simp

theorem get?_fields_other {key : String} (hm : key ≠ "metadata") (hv : key ≠ "apiVersion")
    (hk : key ≠ "kind") : Fields.get? key o.fields.fields = o.data.get? key := by
  rw [get?_fields, if_neg hm, if_neg hk, if_neg hv, Option.or_none, Option.or_none]

end Written

end Object

end Admission
