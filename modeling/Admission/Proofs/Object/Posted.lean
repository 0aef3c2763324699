import Admission.Proofs.Object.Tracks

/-!
# The diff of what is written of objects, applied to the object that was posted

An object need not be written as it was posted.  The diff of what is written of it and of another object
that was read can still be applied to it as it was posted, and gives what is read as the other object
(`Object.takes_posted`), on two conditions:

* the posted object has a place for all that changes in what is written of it: if its metadata change,
  it has some, and if their owner references change, these have the fields that are always written
  (`Object.hasPlaces`);
* the other object has no kind among its other fields, where one is left if it came with a version that
  is no text.
-/

namespace Admission.Object

/-! ## 1. the kind -/

section Types

variable {fields data : Dict Json} {types : Option TypeMeta}

theorem takeTypes_of_texts {version kind : String}
    (hv : fields.get? "apiVersion" = some (.str version))
    (hk : fields.get? "kind" = some (.str kind)) :
    takeTypes fields = (some ⟨version, kind⟩, (fields.erase "apiVersion").erase "kind") := by
  unfold takeTypes
  rw [hv, hk]

theorem takeTypes_of_version {version : String}
    (hv : fields.get? "apiVersion" = some (.str version))
    (hk : ∀ kind, fields.get? "kind" ≠ some (.str kind)) :
    takeTypes fields = (none, (fields.erase "apiVersion").erase "kind") := by
  unfold takeTypes
  rw [hv]
  cases hkind : fields.get? "kind" with
  | none => rfl
  | some value =>
    cases value with
    | str kind => exact absurd hkind (hk kind)
    | _ => rfl

theorem takeTypes_of_other {version : Json} (hv : fields.get? "apiVersion" = some version)
    (htext : ∀ text, version ≠ .str text) :
    takeTypes fields = (none, fields.erase "apiVersion") := by
  unfold takeTypes
  rw [hv]
  cases version with
  | str text => exact absurd rfl (htext text)
  | _ => rfl

theorem takeTypes_of_none (hv : fields.get? "apiVersion" = none) :
    takeTypes fields = (none, fields.erase "kind") := by
  unfold takeTypes
  rw [hv]

/-- How the kind is taken out of the fields. -/
inductive Taken (fields : Dict Json) : Option TypeMeta → Dict Json → Prop
  | texts {version kind : String} (hv : fields.get? "apiVersion" = some (.str version))
      (hk : fields.get? "kind" = some (.str kind)) :
      Taken fields (some ⟨version, kind⟩) ((fields.erase "apiVersion").erase "kind")
  | version {version : String} (hv : fields.get? "apiVersion" = some (.str version))
      (hk : ∀ kind, fields.get? "kind" ≠ some (.str kind)) :
      Taken fields none ((fields.erase "apiVersion").erase "kind")
  | other {version : Json} (hv : fields.get? "apiVersion" = some version)
      (htext : ∀ text, version ≠ .str text) : Taken fields none (fields.erase "apiVersion")
  | unversioned (hv : fields.get? "apiVersion" = none) : Taken fields none (fields.erase "kind")

theorem taken_takeTypes (h : takeTypes fields = (types, data)) : Taken fields types data := by
  unfold takeTypes at h
  split at h
  · rename_i hv hk
    cases h
    exact .texts hv hk
  · rename_i hv hnot
    cases h
    exact .version hv fun kind hk => hnot kind hk
  · rename_i htext hv hnot
    cases h
    exact .other hv htext
  · rename_i hv
    cases h
    exact .unversioned hv

theorem Taken.get?_other (h : Taken fields types data) {key : String} (hv : key ≠ "apiVersion")
    (hk : key ≠ "kind") : data.get? key = fields.get? key := by
  cases h <;> simp [Dict.get?_erase, hv, hk]

theorem Taken.kind_of_data (h : Taken fields types data) {value : Json}
    (hk : data.get? "kind" = some value) : fields.get? "kind" = some value := by
  cases h <;> simp_all [Dict.get?_erase]

/-- After the diff the version and the kind are gone if they were written, and else as they were.  So no
kind is taken, and none is left. -/
theorem Taken.after (h : Taken fields types data) {left : Dict Json}
    (hv : left.get? "apiVersion" = if types.isSome then none else fields.get? "apiVersion")
    (hk : left.get? "kind" =
      if types.isSome ∨ (data.get? "kind").isSome then none else fields.get? "kind") :
    ∃ rest, takeTypes left = (none, rest) ∧ rest.get? "apiVersion" = none ∧
      rest.get? "kind" = none ∧
      ∀ key, key ≠ "apiVersion" → key ≠ "kind" → rest.get? key = left.get? key := by
  cases h with
  | texts =>
    refine ⟨_, takeTypes_of_none hv, ?_, ?_, fun key _ hne => ?_⟩
    · rw [Dict.get?_erase, hv]
      rfl
    · rw [Dict.get?_erase, if_pos rfl]
    · rw [Dict.get?_erase, if_neg hne]
  | version hversion hnot =>
    have hkind : left.get? "kind" = fields.get? "kind" := by
      simpa [Dict.get?_erase] using hk
    rw [hversion] at hv
    refine ⟨_, takeTypes_of_version hv fun kind => by rw [hkind]; exact hnot kind, ?_, ?_,
      fun key hne hne' => ?_⟩
    · rw [Dict.get?_erase, Dict.get?_erase]
      simp
    · rw [Dict.get?_erase, if_pos rfl]
    · rw [Dict.get?_erase, if_neg hne', Dict.get?_erase, if_neg hne]
  | other hversion htext =>
    rw [hversion] at hv
    refine ⟨_, takeTypes_of_other hv htext, ?_, ?_, fun key hne _ => ?_⟩
    · rw [Dict.get?_erase, if_pos rfl]
    · rw [Dict.get?_erase, hk, Dict.get?_erase]
      cases fields.get? "kind" <;> simp
    · rw [Dict.get?_erase, if_neg hne]
  | unversioned hversion =>
    rw [hversion] at hv
    have hversion' : left.get? "apiVersion" = none := by simpa using hv
    refine ⟨_, takeTypes_of_none hversion', ?_, ?_, fun key _ hne => ?_⟩
    · rw [Dict.get?_erase, hversion']
      rfl
    · rw [Dict.get?_erase, if_pos rfl]
    · rw [Dict.get?_erase, if_neg hne]

end Types

/-! ## 2. the object that was posted -/

/-- Whether an object as it was posted has a place for all that changes in what is written of it: if the
metadata change, it has some, and those have a place. -/
def hasPlaces (raw : Json) (before after : ObjectMeta) : Bool :=
  before = after ||
    match raw.field? "metadata" with
    | some metadata => ObjectMeta.hasPlaces metadata before after
    | none => false

section Posted

open Json (Becomes FieldBecomes keeps_obj_iff)

variable {fields : List (String × Json)} {submitted admitted : Object}

/-- The fields of an object beside its metadata. -/
def others (fields : List (String × Json)) (hs : Fields.Sorted fields) : Dict Json :=
  (⟨fields, hs⟩ : Dict Json).erase "metadata"

theorem get?_others (hs : Fields.Sorted fields) {key : String} (hne : key ≠ "metadata") :
    (others fields hs).get? key = Fields.get? key fields := by
  rw [others, Dict.get?_erase, if_neg hne]
  rfl

/-- What is read of metadata that may be absent. -/
def readMetadata : Option Json → Decoded ObjectMeta
  | some value => ObjectMeta.ofJson value
  | none => .ok {}

theorem ofJson_obj (hs : Fields.Sorted fields) {o : Object} : ofJson (.obj fields) = .ok o ↔
    readMetadata (Fields.get? "metadata" fields) = .ok o.metadata ∧
      takeTypes (others fields hs) = (o.types, o.data) := by
  have hdict : Dict.ofFields fields = ⟨fields, hs⟩ := Dict.ext hs.sort_eq
  have hdefaulted : (⟨fields, hs⟩ : Dict Json).fields.defaulted "metadata" {} ObjectMeta.ofJson =
      readMetadata (Fields.get? "metadata" fields) := by
    unfold Fields.defaulted
    cases Fields.get? "metadata" fields <;> rfl
  rw [ofJson_eq_ok]
  constructor
  · rintro ⟨_, heq, hmeta, htypes⟩
    cases heq
    rw [hdict] at hmeta htypes
    rw [hdefaulted] at hmeta
    exact ⟨hmeta, htypes⟩
  · rintro ⟨hmeta, htypes⟩
    refine ⟨fields, rfl, ?_, ?_⟩
    · rw [hdict, hdefaulted, hmeta]
    · rw [hdict]
      exact htypes

theorem get?_of_written (hs : Fields.Sorted fields) (hlegible : submitted.Legible)
    (htaken : Taken (others fields hs) submitted.types submitted.data) {key : String}
    (hne : key ≠ "metadata") {value : Json}
    (hget : Fields.get? key submitted.fields.fields = some value) :
    Fields.get? key fields = some value := by
  rw [← get?_others hs hne]
  rcases Decidable.em (key = "apiVersion") with rfl | hv
  · rw [get?_fields_version hlegible] at hget
    generalize submitted.types = types, submitted.data = data at htaken hget
    cases htaken with
    | texts hversion hkind =>
      rw [hversion]
      exact hget
    | _ => cases hget
  · rcases Decidable.em (key = "kind") with rfl | hk
    · rw [get?_fields_kind] at hget
      cases hdata : submitted.data.get? "kind" with
      | some left =>
        rw [hdata] at hget
        rw [htaken.kind_of_data hdata]
        exact hget
      | none =>
        rw [hdata] at hget
        generalize submitted.types = types, submitted.data = data at htaken hget
        cases htaken with
        | texts hversion hkind =>
          rw [hkind]
          exact hget
        | _ => cases hget
    · rw [get?_fields_other hne hv hk] at hget
      rw [← htaken.get?_other hv hk, hget]

theorem exists_becomes_metadata (hraw : (Json.obj fields).Proper)
    (hplaces : hasPlaces (.obj fields) submitted.metadata admitted.metadata = true)
    (hread : readMetadata (Fields.get? "metadata" fields) = .ok submitted.metadata)
    (hlegible : submitted.Legible) (hadmitted : admitted.Legible) :
    ∃ after, FieldBecomes (some submitted.metadata.toJson) (some admitted.metadata.toJson)
        (Fields.get? "metadata" fields) after ∧
      ∃ m, readMetadata after = .ok m ∧ m.Same admitted.metadata := by
  unfold hasPlaces at hplaces
  rw [Bool.or_eq_true, decide_eq_true_eq] at hplaces
  rcases hplaces with heq | hplaces
  · have hproper := hlegible.proper.metadata
    rw [← heq]
    refine ⟨_, Json.fieldBecomes_self (Json.proper_some hproper.toJson) _, submitted.metadata, hread,
      ObjectMeta.same_refl hproper⟩
  · cases hm : Fields.get? "metadata" fields with
    | none =>
      rw [show (Json.obj fields).field? "metadata" = none from hm] at hplaces
      cases hplaces
    | some metadata =>
      rw [show (Json.obj fields).field? "metadata" = some metadata from hm] at hplaces
      rw [hm] at hread
      obtain ⟨source, hsource, hmeta⟩ := hadmitted.metadata
      obtain ⟨value, m, hbecomes, hvalue, hsame⟩ :=
        ObjectMeta.exists_becomes (hraw.field hm) hplaces hread hsource hmeta
      exact ⟨some value, .changed hbecomes, m, hvalue, hsame⟩

/-- **What the diff leaves of a field** beside the metadata: what is written of the other object, or, if
nothing is, what was posted and is not written of the first one. -/
structure Leaves (posted before after left : Option Json) : Prop where
  written : ∀ new, after = some new → ∃ value, left = some value ∧ value.same new = true
  unwritten : after = none → left = if before.isSome then none else posted

theorem exists_leaves {posted before after : Option Json}
    (hposted : ∀ value ∈ posted, value.Proper) (hafter : ∀ value ∈ after, value.Proper)
    (hwritten : ∀ value, before = some value → posted = some value) :
    ∃ left, FieldBecomes before after posted left ∧ Leaves posted before after left := by
  cases before with
  | none =>
    cases after with
    | none => exact ⟨_, .kept _, nofun, fun _ => rfl⟩
    | some new =>
      refine ⟨some new, .added new _, ?_, nofun⟩
      rintro _ ⟨⟩
      exact ⟨new, rfl, (hafter new rfl).same_refl⟩
  | some old =>
    obtain rfl := hwritten old rfl
    cases after with
    | none => exact ⟨none, .removed old old, nofun, fun _ => rfl⟩
    | some new =>
      obtain ⟨left, hbecomes, hsame⟩ := Json.Proper.becomes (hafter new rfl) (hposted old rfl)
      refine ⟨some left, .changed hbecomes, ?_, nofun⟩
      rintro _ ⟨⟩
      exact ⟨left, rfl, hsame⟩

theorem exists_becomes (hraw : (Json.obj fields).Proper)
    (hplaces : hasPlaces (.obj fields) submitted.metadata admitted.metadata = true)
    (hread : readMetadata (Fields.get? "metadata" fields) = .ok submitted.metadata)
    (hlegible : submitted.Legible)
    (hwritten : ∀ {key : String}, key ≠ "metadata" → ∀ {value : Json},
      Fields.get? key submitted.fields.fields = some value → Fields.get? key fields = some value)
    (hadmitted : admitted.Legible) :
    ∃ result, Becomes submitted.toJson admitted.toJson (.obj fields) (.obj result) ∧
      Fields.Sorted result ∧
      (∃ m, readMetadata (Fields.get? "metadata" result) = .ok m ∧ m.Same admitted.metadata) ∧
      ∀ key, key ≠ "metadata" → Leaves (Fields.get? key fields)
        (Fields.get? key submitted.fields.fields) (Fields.get? key admitted.fields.fields)
        (Fields.get? key result) := by
  have hafter : (Json.obj admitted.fields.fields).Proper := hadmitted.proper.toJson
  obtain ⟨result, hresult, hsorted, hgood⟩ := Json.becomes_obj (fun key after =>
      (key = "metadata" → ∃ m, readMetadata after = .ok m ∧ m.Same admitted.metadata) ∧
      (key ≠ "metadata" → Leaves (Fields.get? key fields)
        (Fields.get? key submitted.fields.fields) (Fields.get? key admitted.fields.fields) after))
    submitted.fields.sorted admitted.fields.sorted (keeps_obj_iff.1 hraw).1 fun key => by
      rcases Decidable.em (key = "metadata") with rfl | hne
      · rw [get?_fields_metadata hlegible, get?_fields_metadata hadmitted]
        obtain ⟨after, hbecomes, hm⟩ :=
          exists_becomes_metadata hraw hplaces hread hlegible hadmitted
        exact ⟨after, hbecomes, fun _ => hm, fun hne => absurd rfl hne⟩
      · obtain ⟨left, hbecomes, hleaves⟩ := exists_leaves (fun _ hm => hraw.field hm)
          (fun _ hm => hafter.field hm) (fun _ hold => hwritten hne hold)
        exact ⟨left, hbecomes, fun h => absurd h hne, fun _ => hleaves⟩
  exact ⟨result, hresult, hsorted, (hgood _).1 rfl, fun key hne => (hgood key).2 hne⟩

section Left

variable {result : List (String × Json)} (hs : Fields.Sorted fields)
  (hsorted : Fields.Sorted result) (hlegible : submitted.Legible) (hadmitted : admitted.Legible)
  (htaken : Taken (others fields hs) submitted.types submitted.data)
  (hleaves : ∀ key, key ≠ "metadata" → Leaves (Fields.get? key fields)
    (Fields.get? key submitted.fields.fields) (Fields.get? key admitted.fields.fields)
    (Fields.get? key result))
include hadmitted htaken hleaves

theorem rel_others {key : String} (hv : key ≠ "apiVersion") (hk : key ≠ "kind") :
    Option.Rel (fun x y => x.same y = true) ((others result hsorted).get? key)
      (admitted.data.get? key) := by
  rcases Decidable.em (key = "metadata") with rfl | hne
  · rw [others, Dict.get?_erase, if_pos rfl, hadmitted.withoutMetadata]
    exact .none
  · have hkey := hleaves key hne
    rw [get?_fields_other hne hv hk, get?_fields_other hne hv hk, htaken.get?_other hv hk,
      get?_others hs hne] at hkey
    rw [get?_others hsorted hne]
    cases hnew : admitted.data.get? key with
    | some new =>
      obtain ⟨value, hvalue, hsame⟩ := hkey.written new hnew
      rw [hvalue]
      exact .some hsame
    | none =>
      rw [hkey.unwritten hnew]
      cases Fields.get? key fields <;> exact .none

theorem rel_data {rest : Dict Json} (hkind : admitted.data.get? "kind" = none)
    (hrestVersion : rest.get? "apiVersion" = none) (hrestKind : rest.get? "kind" = none)
    (hrest : ∀ key, key ≠ "apiVersion" → key ≠ "kind" →
      rest.get? key = (others result hsorted).get? key) (key : String) :
    Option.Rel (fun x y => x.same y = true) (rest.get? key) (admitted.data.get? key) := by
  rcases Decidable.em (key = "kind") with rfl | hk
  · rw [hrestKind, hkind]
    exact .none
  · rcases Decidable.em (key = "apiVersion") with rfl | hv
    · rw [hrestVersion, hadmitted.withoutVersion]
      exact .none
    · rw [hrest key hv hk]
      exact rel_others hs hsorted hadmitted htaken hleaves hv hk

include hlegible

/-- What the diff leaves beside the metadata is read as the kind and the data of the other object. -/
theorem exists_takeTypes (hkind : admitted.data.get? "kind" = none) :
    ∃ rest, takeTypes (others result hsorted) = (admitted.types, rest) ∧
      ∀ key, Option.Rel (fun x y => x.same y = true) (rest.get? key) (admitted.data.get? key) := by
  have hversion := hleaves "apiVersion" (by decide)
  have hkinds := hleaves "kind" (by decide)
  rw [get?_fields_version hadmitted, get?_fields_version hlegible] at hversion
  rw [get?_fields_kind, get?_fields_kind, hkind, Option.none_or] at hkinds
  cases htypes : admitted.types with
  | some types =>
    rw [htypes] at hversion hkinds
    obtain ⟨version, hresult, hsame⟩ := hversion.written _ rfl
    obtain ⟨kind, hresult', hsame'⟩ := hkinds.written _ rfl
    rw [Json.eq_str_of_same hsame] at hresult
    rw [Json.eq_str_of_same hsame'] at hresult'
    rw [← get?_others hsorted (by decide)] at hresult hresult'
    refine ⟨_, takeTypes_of_texts hresult hresult',
      rel_data hs hsorted hadmitted htaken hleaves hkind ?_ ?_ fun key hv hk => ?_⟩
    · rw [Dict.get?_erase, Dict.get?_erase, if_neg (by decide), if_pos rfl]
    · rw [Dict.get?_erase, if_pos rfl]
    · rw [Dict.get?_erase, Dict.get?_erase, if_neg hk, if_neg hv]
  | none =>
    rw [htypes] at hversion hkinds
    have hleftVersion : (others result hsorted).get? "apiVersion" =
        if submitted.types.isSome then none else (others fields hs).get? "apiVersion" := by
      rw [get?_others hsorted (by decide), get?_others hs (by decide), hversion.unwritten rfl,
        Option.isSome_map]
    have hleftKind : (others result hsorted).get? "kind" =
        if submitted.types.isSome ∨ (submitted.data.get? "kind").isSome then none
        else (others fields hs).get? "kind" := by
      rw [get?_others hsorted (by decide), get?_others hs (by decide), hkinds.unwritten rfl]
      congr 1
      simp [or_comm]
    obtain ⟨rest, hrest, hrestVersion, hrestKind, hothers⟩ := htaken.after hleftVersion hleftKind
    exact ⟨rest, hrest, rel_data hs hsorted hadmitted htaken hleaves hkind hrestVersion hrestKind
      hothers⟩

end Left

/-- **The diff of what is written of two objects, applied to the first one as it was posted, gives
what is read as the second one.** -/
theorem takes_posted {raw : Json} (hraw : raw.Proper) (hread : ofJson raw = .ok submitted)
    (hplaces : hasPlaces raw submitted.metadata admitted.metadata = true)
    (hadmitted : admitted.Legible) (hkind : admitted.data.get? "kind" = none) :
    ∃ result o, Patch.Takes (Json.diff submitted.toJson admitted.toJson) raw result ∧
      ofJson result = .ok o ∧ o.Same admitted := by
  have hlegible := legible_of_ofJson hraw hread
  obtain ⟨fields, rfl, -, -⟩ := ofJson_eq_ok.1 hread
  have hs : Fields.Sorted fields := (keeps_obj_iff.1 hraw).1
  obtain ⟨hmeta, htypes⟩ := (ofJson_obj hs).1 hread
  have htaken := taken_takeTypes htypes
  obtain ⟨result, hresult, hsorted, ⟨m, hm, hsame⟩, hview⟩ :=
    exists_becomes hraw hplaces hmeta hlegible (get?_of_written hs hlegible htaken) hadmitted
  obtain ⟨rest, hrest, hsameRest⟩ :=
    exists_takeTypes hs hsorted hlegible hadmitted htaken hview hkind
  refine ⟨.obj result, ⟨admitted.types, m, rest⟩, hresult .whole,
    (ofJson_obj hsorted).2 ⟨hm, hrest⟩, rfl, hsame, ?_⟩
  exact (Json.agreeFields_iff rest.sorted admitted.data.sorted).2 hsameRest

end Posted

end Admission.Object
