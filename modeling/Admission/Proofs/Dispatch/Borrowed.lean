import Admission.Proofs.Dispatch.Fidelity

/-!
# Maps that are lent to a patch

Before a patch is applied, metadata maps that the document lacks are filled in, and after it those that are
still empty are taken away.  What lies between the two may be anything: the second step only has the names of
the maps that the first one put in, and by then the document may have other metadata, or none.  Still it takes
away exactly what was lent and nobody used (`Mutation.pruneMaps_eq`), and with nothing in between the two
steps undo each other (`Mutation.pruneMaps_fillMaps`).

This needs nothing of the transformation but that it gives a document again.
-/

namespace Admission

/-! ## 1. Taking keys away -/

namespace Fields

variable {α β : Type}

theorem get?_without (gone : List String) (fields : Fields α) (key : String) :
    get? key (fields.filter fun pair => pair.1 ∉ gone) = if key ∈ gone then none else get? key fields := by
  induction fields with
  | nil => simp
  | cons pair rest ih =>
    obtain ⟨k, v⟩ := pair
    by_cases hk : k ∈ gone
    · rw [List.filter_cons_of_neg (by simpa using hk), ih]
      by_cases heq : k = key
      · simp [← heq, hk]
      · simp [get?, heq]
    · rw [List.filter_cons_of_pos (by simpa using hk), get?, ih]
      by_cases heq : k = key
      · simp [get?, ← heq, hk]
      · simp [get?, heq]

theorem get?_mapValues (f : String → α → β) (fields : Fields α) (key : String) :
    get? key (fields.map fun pair => (pair.1, f pair.1 pair.2)) = (get? key fields).map (f key) := by
  induction fields with
  | nil => rfl
  | cons pair rest ih =>
    obtain ⟨k, v⟩ := pair
    by_cases heq : k = key
    · simp [get?, heq]
    · simp [get?, heq, ih]

theorem Sorted.mapValues {fields : Fields α} (h : fields.Sorted) (f : String → α → β) :
    Sorted (fields.map fun pair => (pair.1, f pair.1 pair.2)) :=
  List.pairwise_map.2 h

end Fields

namespace Json

/-- A value without some keys, if it is an object. -/
def without (gone : List String) : Json → Json
  | .obj fields => .obj (fields.filter fun pair => pair.1 ∉ gone)
  | value => value

/-- **A document whose metadata are without some keys**, and that is otherwise the same. -/
def withoutMetadata (gone : List String) : Json → Json
  | .obj fields =>
    .obj (fields.map fun pair => (pair.1, if pair.1 = "metadata" then pair.2.without gone else pair.2))
  | document => document

section Without

variable {gone : List String}

theorem without_of_not_obj {value : Json} (h : ∀ fields, value ≠ .obj fields) : value.without gone = value := by
  cases value with
  | obj fields => exact absurd rfl (h fields)
  | _ => rfl

theorem withoutMetadata_nil (document : Json) : document.withoutMetadata [] = document := by
  have hone : ∀ value : Json, value.without [] = value := by
    intro value
    cases value with
    | obj fields => simp [without]
    | _ => rfl
  cases document with
  | obj fields => simp [withoutMetadata, hone]
  | _ => rfl

theorem field?_withoutMetadata (document : Json) (key : String) :
    (document.withoutMetadata gone).field? key =
      (document.field? key).map fun value => if key = "metadata" then value.without gone else value := by
  cases document with
  | obj fields =>
    exact Fields.get?_mapValues (fun key value => if key = "metadata" then value.without gone else value) fields
      key
  | _ => rfl

theorem at?_withoutMetadata (document : Json) {key : String} (h : key ∉ gone) :
    (document.withoutMetadata gone).at? ["metadata", key] = document.at? ["metadata", key] := by
  have hone : ∀ value : Json, (value.without gone).at? [key] = value.at? [key] := by
    intro value
    cases value with
    | obj fields =>
      show (Fields.get? key _).bind _ = (Fields.get? key _).bind _
      rw [Fields.get?_without, if_neg h]
    | _ => rfl
  cases document with
  | obj fields =>
    have hmetadata := @field?_withoutMetadata gone (.obj fields) "metadata"
    show (field? "metadata" (withoutMetadata gone (.obj fields))).bind _ =
      (field? "metadata" (.obj fields)).bind _
    rw [hmetadata]
    cases field? "metadata" (.obj fields) with
    | none => rfl
    | some value => exact hone value
  | _ => rfl

theorem withoutMetadata_eq_self {fields : List (String × Json)} (h : Fields.Sorted fields)
    (hnone : ∀ metadata, Fields.get? "metadata" fields ≠ some (.obj metadata)) :
    (Json.obj fields).withoutMetadata gone = .obj fields := by
  refine congrArg Json.obj ((List.map_congr_left fun pair hm => ?_).trans (List.map_id fields))
  obtain ⟨key, value⟩ := pair
  by_cases hkey : key = "metadata"
  · have hget : Fields.get? "metadata" fields = some value := hkey ▸ h.get?_of_mem hm
    have hvalue : value.without gone = value :=
      without_of_not_obj fun metadata hobj => hnone metadata (hobj ▸ hget)
    simp [hkey, hvalue]
  · simp [hkey]

end Without

end Json

/-! ## 2. What goes -/

namespace Mutation

open Json (keeps_obj_iff)

/-- **A document with metadata lacks one of the two maps**, so that it is lent. -/
def Lacks (document : Json) (key : String) : Prop :=
  (key = "labels" ∨ key = "annotations") ∧
    ∃ metadata : Fields Json, document.field? "metadata" = some (.obj metadata) ∧ metadata.get? key = none

theorem mem_absentMaps_iff_lacks {document : Json} {key : String} :
    key ∈ absentMaps document ↔ Lacks document key := by
  rw [mem_absentMaps, Lacks]
  simp [metadataMaps]

theorem modifyMetadata_eq_self {document : Json} (change : Fields Json → Fields Json)
    (h : ∀ metadata, document.field? "metadata" ≠ some (.obj metadata)) :
    modifyMetadata change document = document := by
  cases document with
  | obj fields =>
    unfold modifyMetadata
    dsimp only
    split
    · rename_i metadata hm
      exact absurd hm (h metadata)
    · rfl
  | _ => rfl

theorem at?_metadata {document : Json} {key : String} {metadata : Fields Json}
    (h : document.field? "metadata" = some (.obj metadata)) :
    document.at? ["metadata", key] = metadata.get? key := by
  cases document with
  | obj fields =>
    have hget : Fields.get? "metadata" fields = some (.obj metadata) := h
    show (Fields.get? "metadata" fields).bind (Json.at? [key]) = _
    rw [hget, Option.bind_some]
    show (Fields.get? key metadata).bind (Json.at? []) = _
    cases Fields.get? key metadata <;> rfl
  | _ => cases h

/-- The metadata that pruning leaves are those without the keys that go. -/
theorem pruned_eq_filter {keys gone : List String} {metadata : Fields Json} (hm : metadata.Sorted)
    (hgone : ∀ key, key ∈ gone ↔ key ∈ keys ∧ metadata.get? key = some (.obj [])) :
    pruned keys metadata = metadata.filter fun pair => pair.1 ∉ gone := by
  refine Fields.Sorted.ext (pruned_sorted hm) (List.Pairwise.filter _ hm) fun key => ?_
  rw [get?_pruned, Fields.get?_without]
  simp only [hgone]

/-- **Pruning takes away the maps of some names that are there and empty**, and nothing else. -/
theorem pruneMaps_eq {keys gone : List String} {document : Json} (hd : document.Proper)
    (hgone : ∀ key, key ∈ gone ↔ key ∈ keys ∧ document.at? ["metadata", key] = some (.obj [])) :
    pruneMaps keys document = document.withoutMetadata gone := by
  by_cases hm : ∃ metadata, document.field? "metadata" = some (.obj metadata)
  · obtain ⟨metadata, hm⟩ := hm
    have hsorted : Fields.Sorted metadata := (keeps_obj_iff.1 (hd.field? hm)).1
    have hkept : pruned keys metadata = metadata.filter fun pair => pair.1 ∉ gone :=
      pruned_eq_filter hsorted fun key => by rw [hgone, at?_metadata hm]
    cases document with
    | obj fields =>
      have hfields : Fields.Sorted fields := (keeps_obj_iff.1 hd).1
      rw [pruneMaps_obj hm, hkept]
      refine congrArg Json.obj (Fields.Sorted.ext (hfields.update _ _)
        (hfields.mapValues fun key value => if key = "metadata" then value.without gone else value)
        fun key => ?_)
      have hget := Fields.get?_mapValues
        (fun key value => if key = "metadata" then Json.without gone value else value) fields key
      refine (Fields.get?_update ..).trans (Eq.trans ?_ hget.symm)
      by_cases hkey : key = "metadata"
      · have hget : Fields.get? "metadata" fields = some (.obj metadata) := hm
        rw [if_pos hkey, hkey, hget]
        rfl
      · simp [hkey]
    | _ => cases hm
  · have hnone : ∀ metadata, document.field? "metadata" ≠ some (.obj metadata) :=
      fun metadata h => hm ⟨metadata, h⟩
    rw [pruneMaps, modifyMetadata_eq_self _ hnone]
    cases document with
    | obj fields => exact (Json.withoutMetadata_eq_self (keeps_obj_iff.1 hd).1 hnone).symm
    | _ => rfl

theorem pruneMaps_fillMaps {document : Json} (hd : document.Proper) :
    pruneMaps (absentMaps document) (fillMaps (absentMaps document) document) = document := by
  by_cases hm : ∃ metadata, document.field? "metadata" = some (.obj metadata)
  · obtain ⟨metadata, hm⟩ := hm
    have hsorted : Fields.Sorted metadata := (keeps_obj_iff.1 (hd.field? hm)).1
    have hlacks : ∀ key ∈ absentMaps document, Fields.get? key metadata = none := by
      intro key hkey
      obtain ⟨-, other, hother, hnone⟩ := mem_absentMaps.1 hkey
      rw [hm] at hother
      cases hother
      exact hnone
    have hkept : pruned (absentMaps document) metadata =
        metadata.filter fun pair => pair.1 ∉ ([] : List String) := by
      refine pruned_eq_filter hsorted fun key => ⟨fun h => absurd h List.not_mem_nil, ?_⟩
      rintro ⟨hkey, hempty⟩
      rw [hlacks key hkey] at hempty
      cases hempty
    have hback : pruned (absentMaps document) (filled (absentMaps document) metadata) = metadata := by
      rw [pruned_filled hsorted (fun _ h => h) hlacks, hkept]
      simp
    cases document with
    | obj fields =>
      have hfields : Fields.Sorted fields := (keeps_obj_iff.1 hd).1
      have hfilled : Fields.get? "metadata" (Fields.update "metadata"
          (some (.obj (filled (absentMaps (.obj fields)) metadata))) fields) =
            some (.obj (filled (absentMaps (.obj fields)) metadata)) := by
        rw [Fields.get?_update, if_pos rfl]
      rw [fillMaps_obj hm, pruneMaps_obj hfilled, hfields.update_update, hback]
      exact congrArg Json.obj (hfields.insert_self hm)
    | _ => cases hm
  · have hnone : ∀ metadata, document.field? "metadata" ≠ some (.obj metadata) :=
      fun metadata h => hm ⟨metadata, h⟩
    rw [fillMaps, modifyMetadata_eq_self _ hnone, pruneMaps, modifyMetadata_eq_self _ hnone]

/-- **What was lent and not used is taken back, and nothing else.**  Fill in the maps that the metadata of a
document lack, transform the document in any way, and take away those of these maps that are empty then.  What
comes of it is the transformed document without those of its metadata that the document lacked and that are
empty maps.  So a map that the document had stays, empty or not, as does whatever is no empty map, and nothing
beside the metadata is touched; a document that is not transformed is itself again, and one without metadata
that are an object goes through both steps as it is. -/
theorem lent_maps_are_taken_back {document : Json} (hd : document.Proper) {change : Json → Json}
    (hchange : ∀ value : Json, value.Proper → (change value).Proper) :
    let sent := fillMaps (absentMaps document) document
    let changed := change sent
    let result := pruneMaps (absentMaps document) changed
    (∃ gone : List String, result = changed.withoutMetadata gone ∧ ∀ key, key ∈ gone ↔
      Lacks document key ∧ changed.at? ["metadata", key] = some (.obj [])) ∧
    (∀ key value, document.at? ["metadata", key] = some value →
      result.at? ["metadata", key] = changed.at? ["metadata", key]) ∧
    (∀ key, key ≠ "metadata" → result.field? key = changed.field? key) ∧
    (∀ key value, changed.at? ["metadata", key] = some value → value ≠ .obj [] →
      result.at? ["metadata", key] = some value) ∧
    (sent = changed → result = document) ∧
    ((∀ metadata, document.field? "metadata" ≠ some (.obj metadata)) →
      sent = document ∧ result = changed) ∧
    ((∀ metadata, changed.field? "metadata" ≠ some (.obj metadata)) → result = changed) := by
  intro sent changed result
  have hchanged : changed.Proper := hchange _ (proper_fillMaps _ hd)
  -- What goes is decided by the two documents alone, whatever led from one to the other.
  let gone := (absentMaps document).filter fun key => changed.at? ["metadata", key] = some (.obj [])
  have hgone : ∀ key, key ∈ gone ↔
      key ∈ absentMaps document ∧ changed.at? ["metadata", key] = some (.obj []) := by
    simp [gone]
  have hresult : result = changed.withoutMetadata gone := pruneMaps_eq hchanged hgone
  refine ⟨⟨gone, hresult, fun key => by rw [hgone, mem_absentMaps_iff_lacks]⟩, ?_, ?_, ?_, ?_, ?_, ?_⟩
  · intro key value hhad
    rw [hresult]
    refine Json.at?_withoutMetadata _ fun hkey => ?_
    obtain ⟨-, metadata, hm, hnone⟩ := mem_absentMaps_iff_lacks.1 ((hgone key).1 hkey).1
    rw [at?_metadata hm, hnone] at hhad
    cases hhad
  · intro key hkey
    rw [hresult, Json.field?_withoutMetadata]
    simp [hkey]
  · intro key value hthere hvalue
    rw [hresult, Json.at?_withoutMetadata _ fun hkey => ?_, hthere]
    exact hvalue (Option.some.inj (hthere.symm.trans ((hgone key).1 hkey).2))
  · intro hsame
    exact (congrArg (pruneMaps (absentMaps document)) hsame.symm).trans (pruneMaps_fillMaps hd)
  · intro hnone
    have hnil : absentMaps document = [] := by
      refine List.eq_nil_iff_forall_not_mem.2 fun key hkey => ?_
      obtain ⟨-, metadata, hm, -⟩ := mem_absentMaps_iff_lacks.1 hkey
      exact hnone metadata hm
    have hgone : gone = [] := by simp [gone, hnil]
    exact ⟨modifyMetadata_eq_self _ hnone, by rw [hresult, hgone, Json.withoutMetadata_nil]⟩
  · intro hnone
    exact modifyMetadata_eq_self _ hnone

/-! ### a document that is given a label -/

/-- A document with nothing but a name. -/
def bareDocument : Json := .obj [("metadata", .obj [("name", .str "web")])]

/-- It again, with both maps and one of them used. -/
def labelledDocument : Json :=
  .obj [("metadata", .obj [("annotations", .obj []), ("labels", .obj [("team", .str "core")]),
    ("name", .str "web")])]

/-- Of the two maps that it was lent the one that is used stays. -/
theorem lent_maps_are_taken_back_labelled :
    pruneMaps (absentMaps bareDocument) labelledDocument =
      .obj [("metadata", .obj [("labels", .obj [("team", .str "core")]), ("name", .str "web")])] ∧
    (pruneMaps (absentMaps bareDocument) labelledDocument).at? ["metadata", "labels"] =
      some (.obj [("team", .str "core")]) := by
  have hbare : bareDocument.Proper := by
    simp [bareDocument, Fields.Sorted]
  have hlabelled : labelledDocument.Proper := by
    have hkeys : ("annotations" < "labels" ∧ "annotations" < "name") ∧ "labels" < "name" := by decide +kernel
    simpa [labelledDocument, Fields.Sorted] using hkeys
  obtain ⟨⟨gone, hresult, hgone⟩, -, -, hkept, -⟩ :=
    @lent_maps_are_taken_back bareDocument hbare (fun _ => labelledDocument) fun _ _ => hlabelled
  exact ⟨by rfl, hkept "labels" _ rfl nofun⟩

end Mutation

end Admission
