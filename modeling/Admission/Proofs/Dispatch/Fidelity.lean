import Admission.Proofs.Dispatch.Legible

/-!
# What a patch does to the object that was sent

A patch is not applied to the document that the webhook was sent: metadata maps that are absent there
are filled in first, and those that are still empty are taken away afterwards.  The two documents go
through the patch side by side.  At every moment the second one is the first one with empty maps filled
in, for those keys that no operation has written yet (`edit_filled` for one operation,
`applyFrom_filled` for a patch), so the objects that come of them differ in empty maps alone
(`patchObject_eq`).

An operation that looks at the metadata as a whole sees the maps; it may then fail where it would not
have failed on what was sent.
-/

namespace Admission

namespace Mutation

open Json (Proper keeps_obj_iff)
open PatchOperation (Editing editField)

/-! ## 1. filling in and pruning -/

/-- The metadata with empty maps under some keys. -/
def filled (keys : List String) (metadata : Fields Json) : Fields Json :=
  keys.foldl (fun m key => m.insert key (.obj [])) metadata

/-- The metadata without the empty maps under some keys. -/
def pruned (keys : List String) (metadata : Fields Json) : Fields Json :=
  keys.foldl (fun m key => if m.get? key = some (.obj []) then m.erase key else m) metadata

section Maps

variable {keys : List String} {metadata : Fields Json}

theorem get?_filled (keys : List String) (metadata : Fields Json) (k : String) :
    (filled keys metadata).get? k = if k ∈ keys then some (.obj []) else metadata.get? k := by
  induction keys generalizing metadata with
  | nil => rfl
  | cons key rest ih =>
    show (filled rest (metadata.insert key (.obj []))).get? k = _
    rw [ih, Fields.get?_insert]
    by_cases hr : k ∈ rest
    · simp [hr]
    · by_cases hk : k = key <;> simp [hr, hk]

theorem get?_pruned (keys : List String) (metadata : Fields Json) (k : String) :
    (pruned keys metadata).get? k =
      if k ∈ keys ∧ metadata.get? k = some (.obj []) then none else metadata.get? k := by
  induction keys generalizing metadata with
  | nil => simp [pruned]
  | cons key rest ih =>
    show (pruned rest (if metadata.get? key = some (.obj []) then metadata.erase key
      else metadata)).get? k = _
    rw [ih]
    by_cases he : metadata.get? key = some (.obj [])
    · rw [if_pos he, Fields.get?_erase]
      by_cases hk : k = key
      · subst hk
        simp [he]
      · simp [hk]
    · rw [if_neg he]
      by_cases hk : k = key
      · subst hk
        simp [he]
      · simp [hk]

theorem filled_sorted (h : metadata.Sorted) : (filled keys metadata).Sorted := by
  induction keys generalizing metadata with
  | nil => exact h
  | cons key rest ih => exact ih (h.insert key _)

theorem pruned_sorted (h : metadata.Sorted) : (pruned keys metadata).Sorted := by
  induction keys generalizing metadata with
  | nil => exact h
  | cons key rest ih =>
    refine ih ?_
    dsimp only
    split
    · exact h.erase key
    · exact h

theorem pruned_filled {more : List String} (h : metadata.Sorted) (hsub : ∀ key ∈ more, key ∈ keys)
    (hnone : ∀ key ∈ more, metadata.get? key = none) :
    pruned keys (filled more metadata) = pruned keys metadata := by
  refine Fields.Sorted.ext (pruned_sorted (filled_sorted h)) (pruned_sorted h) fun k => ?_
  rw [get?_pruned, get?_pruned, get?_filled]
  by_cases hk : k ∈ more
  · simp [hk, hsub k hk, hnone k hk]
  · simp [hk]

theorem update_filled (h : metadata.Sorted) {key : String} {value : Option Json} :
    Fields.update key value (filled keys metadata) =
      filled (keys.filter (· ≠ key)) (Fields.update key value metadata) := by
  refine Fields.Sorted.ext ((filled_sorted h).update key value)
    (filled_sorted (h.update key value)) fun k => ?_
  rw [Fields.get?_update, get?_filled, get?_filled, Fields.get?_update]
  by_cases hk : k = key <;> simp [hk]

end Maps

/-! ## 2. documents with metadata -/

section Documents

variable {keys : List String} {fields metadata : Fields Json}

theorem mem_absentMaps {document : Json} {key : String} :
    key ∈ absentMaps document ↔ key ∈ metadataMaps ∧
      ∃ metadata : Fields Json, document.field? "metadata" = some (.obj metadata) ∧
        metadata.get? key = none := by
  unfold absentMaps
  split
  · rename_i metadata hm
    simp [hm]
  · rename_i hnone
    constructor
    · intro h; cases h
    · rintro ⟨-, metadata, hm, -⟩
      exact absurd hm (hnone metadata)

theorem fillMaps_obj (hm : fields.get? "metadata" = some (.obj metadata)) :
    fillMaps keys (.obj fields) =
      .obj (fields.update "metadata" (some (.obj (filled keys metadata)))) := by
  unfold fillMaps modifyMetadata
  dsimp only
  rw [hm]
  rfl

theorem pruneMaps_obj (hm : fields.get? "metadata" = some (.obj metadata)) :
    pruneMaps keys (.obj fields) =
      .obj (fields.update "metadata" (some (.obj (pruned keys metadata)))) := by
  unfold pruneMaps modifyMetadata
  dsimp only
  rw [hm]
  rfl

theorem fillMaps_nil {document : Json} (h : document.Proper) : fillMaps [] document = document := by
  cases document with
  | obj fields =>
    by_cases hm : ∃ metadata, Fields.get? "metadata" fields = some (.obj metadata)
    · obtain ⟨metadata, hm⟩ := hm
      rw [fillMaps_obj hm]
      exact congrArg Json.obj ((keeps_obj_iff.1 h).1.insert_self hm)
    · unfold fillMaps modifyMetadata
      dsimp only
      split
      · rename_i metadata hsome
        exact absurd ⟨metadata, hsome⟩ hm
      · rfl
  | _ => rfl

end Documents

/-! ## 3. one operation -/

/-- The maps that are not written, in whole or as part of something, at a path. -/
def unwritten (path : Pointer) (keys : List String) : List String :=
  keys.filter fun key => !path.isPrefixOf ["metadata", key]

theorem exists_metadata {keys : List String} {document : Json}
    (hk : ∀ key ∈ keys, key ∈ absentMaps document) (hne : keys ≠ []) :
    ∃ fields metadata : Fields Json, document = .obj fields ∧
      fields.get? "metadata" = some (.obj metadata) ∧ ∀ key ∈ keys, metadata.get? key = none := by
  obtain ⟨key, hkey⟩ := List.exists_mem_of_ne_nil keys hne
  obtain ⟨-, metadata, hm, -⟩ := mem_absentMaps.1 (hk key hkey)
  cases document with
  | obj fields =>
    refine ⟨fields, metadata, rfl, hm, fun key hkey => ?_⟩
    obtain ⟨-, metadata', hm', hnone⟩ := mem_absentMaps.1 (hk key hkey)
    rw [hm] at hm'
    cases hm'
    exact hnone
  | _ => cases hm

section Edit

variable {run : Pointer → Json → Except PatchFault Json} {place : Pointer → PatchOperation.Edit}
  {keys : List String} {path : Pointer} {document result : Json}

/-- At a place in the metadata it does not matter whether maps were filled in: what an operation can do
where nothing was, it does to a map as well. -/
theorem place_filled (h : Editing run place) {k : String} {more : Pointer} {metadata : Fields Json}
    {v : Option Json} (hnone : ∀ key ∈ keys, metadata.get? key = none)
    (hv : place more (metadata.get? k) = .ok v) :
    unwritten ("metadata" :: k :: more) keys = keys.filter (· ≠ k) ∧
      place more ((filled keys metadata).get? k) = .ok v := by
  rw [get?_filled]
  rcases Decidable.em (k ∈ keys) with hin | hout
  · rw [hnone k hin] at hv
    obtain ⟨rfl, hall⟩ := h.absent hv
    rw [if_pos hin]
    refine ⟨List.filter_congr fun key _ => ?_, hall _⟩
    rcases Decidable.em (k = key) with rfl | hkey
    · simp [List.isPrefixOf]
    · simp [List.isPrefixOf, hkey, Ne.symm hkey]
  · rw [if_neg hout]
    have hkept : keys.filter (· ≠ k) = keys := by
      rw [List.filter_eq_self]
      intro key hkey
      have hne : key ≠ k := fun heq => hout (heq ▸ hkey)
      simpa using hne
    rw [hkept]
    refine ⟨List.filter_eq_self.2 fun key hkey => ?_, hv⟩
    have hne : k ≠ key := fun heq => hout (heq ▸ hkey)
    simp [List.isPrefixOf, hne]

/-- **An operation does to a document with filled-in maps what it does to the document**, and the maps
that it does not write are still the ones that were filled in. -/
theorem edit_filled (h : Editing run place) (hd : document.Proper) (hr : result.Proper)
    (hk : ∀ key ∈ keys, key ∈ absentMaps document) (hrun : run path document = .ok result) :
    run path (fillMaps keys document) = .ok (fillMaps (unwritten path keys) result) ∧
      ∀ key ∈ unwritten path keys, key ∈ absentMaps result := by
  rcases Decidable.em (keys = []) with rfl | hne
  · rw [show unwritten path [] = [] from rfl, fillMaps_nil hd, fillMaps_nil hr]
    exact ⟨hrun, by simp⟩
  obtain ⟨fields, metadata, rfl, hm, hnone⟩ := exists_metadata hk hne
  have hsorted : Fields.Sorted fields := (keeps_obj_iff.1 hd).1
  have hmsorted : Fields.Sorted metadata := (keeps_obj_iff.1 (hd.field hm)).1
  rw [fillMaps_obj hm]
  cases path with
  | nil =>
    -- the whole document is put in its place
    have hall : unwritten [] keys = [] := by simp [unwritten]
    rw [hall, fillMaps_nil hr, h.nil _ (.obj fields)]
    exact ⟨hrun, by simp⟩
  | cons key rest =>
    rw [h.obj] at hrun ⊢
    obtain ⟨value, hvalue, hresult⟩ := bind_eq_ok.1 hrun
    cases hresult
    rcases Decidable.em (key = "metadata") with rfl | hkey
    · rw [hm] at hvalue
      cases rest with
      | nil =>
        -- the metadata are put in their place
        have hall : unwritten ["metadata"] keys = [] := by simp [unwritten]
        rw [hall, fillMaps_nil hr]
        refine ⟨bind_eq_ok.2 ⟨value, ?_, ?_⟩, by simp⟩
        · rw [Fields.get?_update, if_pos rfl, h.here _ (.obj metadata), hvalue]
        · rw [hsorted.update_update]
          rfl
      | cons k more =>
        -- below the metadata
        rw [h.below (List.cons_ne_nil k more)] at hvalue ⊢
        obtain ⟨inner, hinner, rfl⟩ := PatchOperation.inside_eq_ok.1 hvalue
        rw [h.obj] at hinner
        obtain ⟨v, hv, hinner⟩ := bind_eq_ok.1 hinner
        cases hinner
        obtain ⟨hkeys, hplace⟩ := place_filled h hnone hv
        have hresult : Fields.get? "metadata" (Fields.update "metadata"
            (some (.obj (Fields.update k v metadata))) fields) =
              some (.obj (Fields.update k v metadata)) := by
          rw [Fields.get?_update, if_pos rfl]
        rw [hkeys, fillMaps_obj hresult]
        refine ⟨bind_eq_ok.2 ⟨some (.obj (Fields.update k v (filled keys metadata))), ?_, ?_⟩,
          fun key hkey => ?_⟩
        · rw [Fields.get?_update, if_pos rfl]
          refine PatchOperation.inside_eq_ok.2 ⟨_, ?_, rfl⟩
          rw [h.obj]
          exact bind_eq_ok.2 ⟨v, hplace, rfl⟩
        · rw [hsorted.update_update, hsorted.update_update, update_filled hmsorted]
          rfl
        · obtain ⟨hin, hkne⟩ := List.mem_filter.1 hkey
          refine mem_absentMaps.2 ⟨(mem_absentMaps.1 (hk key hin)).1, _, hresult, ?_⟩
          rw [Fields.get?_update, if_neg (by simpa using hkne), hnone key hin]
    · -- beside the metadata
      have hsame : unwritten (key :: rest) keys = keys := by
        simp [unwritten, List.isPrefixOf, hkey]
      have hother : Fields.get? "metadata" (Fields.update key value fields) =
          some (.obj metadata) := by
        rw [Fields.get?_update, if_neg (Ne.symm hkey), hm]
      rw [hsame, fillMaps_obj hother]
      refine ⟨bind_eq_ok.2 ⟨value, ?_, ?_⟩, fun k hkeys => ?_⟩
      · rw [Fields.get?_update, if_neg hkey, hvalue]
      · rw [hsorted.update_comm (Ne.symm hkey)]
        rfl
      · exact mem_absentMaps.2 ⟨(mem_absentMaps.1 (hk k hkeys)).1, metadata, hother, hnone k hkeys⟩

/-- What is looked at outside the metadata as a whole is the same, and a place where something is to be
seen is not one of those that were filled in. -/
theorem at?_filled {value : Json} (hd : document.Proper)
    (hk : ∀ key ∈ keys, key ∈ absentMaps document)
    (hlook : keys ≠ [] → ¬ path <+: ["metadata"]) (hat : document.at? path = some value) :
    (fillMaps keys document).at? path = some value ∧ unwritten path keys = keys := by
  rcases Decidable.em (keys = []) with rfl | hne
  · rw [fillMaps_nil hd]
    exact ⟨hat, rfl⟩
  have hpath := hlook hne
  obtain ⟨fields, metadata, rfl, hm, hnone⟩ := exists_metadata hk hne
  rw [fillMaps_obj hm]
  cases path with
  | nil => exact absurd (List.nil_prefix) hpath
  | cons key rest =>
    obtain ⟨inner, hinner, hat⟩ := Option.bind_eq_some_iff.1 hat
    rcases Decidable.em (key = "metadata") with rfl | hkey
    · rw [hm] at hinner
      cases hinner
      cases rest with
      | nil => exact absurd (List.prefix_refl _) hpath
      | cons k more =>
        obtain ⟨v, hv, hat⟩ := Option.bind_eq_some_iff.1 hat
        have hk' : k ∉ keys := by
          intro hin
          rw [hnone k hin] at hv
          cases hv
        constructor
        · refine Option.bind_eq_some_iff.2 ⟨.obj (filled keys metadata), ?_, ?_⟩
          · rw [Fields.get?_update, if_pos rfl]
          · refine Option.bind_eq_some_iff.2 ⟨v, ?_, hat⟩
            rw [get?_filled, if_neg hk', hv]
        · refine List.filter_eq_self.2 fun key hkey => ?_
          have hne' : k ≠ key := fun heq => hk' (heq ▸ hkey)
          simp [List.isPrefixOf, hne']
    · constructor
      · refine Option.bind_eq_some_iff.2 ⟨inner, ?_, hat⟩
        rw [Fields.get?_update, if_neg hkey, hinner]
      · simp [unwritten, List.isPrefixOf, hkey]

end Edit

/-! ## 4. a patch -/

/-- What an operation looks at as a whole: it compares it, or puts it somewhere else. -/
def looked? : PatchOperation → Option Pointer
  | .test path _ => some path
  | .copy source _ => some source
  | .move source _ => some source
  | _ => none

/-- The maps that an operation leaves unwritten. -/
def unwrittenBy (keys : List String) : PatchOperation → List String
  | .test _ _ => keys
  | operation => unwritten operation.path keys

/-- **No operation compares, copies or moves the metadata or the whole document while one of the maps
under the keys is unwritten.** -/
def Overlooks : List String → Patch → Prop
  | _, [] => True
  | keys, operation :: rest =>
    (keys ≠ [] → ∀ path ∈ looked? operation, ¬ path <+: ["metadata"]) ∧
      Overlooks (unwrittenBy keys operation) rest

theorem apply_filled {operation : PatchOperation} {keys : List String} {document result : Json}
    (ho : ∀ value, operation.operand? = some value → value.Proper) (hd : document.Proper)
    (hk : ∀ key ∈ keys, key ∈ absentMaps document)
    (hlook : keys ≠ [] → ∀ path ∈ looked? operation, ¬ path <+: ["metadata"])
    (h : operation.apply document = .ok result) :
    operation.apply (fillMaps keys document) = .ok (fillMaps (unwrittenBy keys operation) result) ∧
      ∀ key ∈ unwrittenBy keys operation, key ∈ absentMaps result := by
  have hr := PatchOperation.proper_of_apply ho hd h
  cases operation with
  | add path value => exact edit_filled (PatchOperation.editing_add value) hd hr hk h
  | remove path => exact edit_filled PatchOperation.editing_remove hd hr hk h
  | replace path value => exact edit_filled (PatchOperation.editing_replace value) hd hr hk h
  | move source path =>
    unfold PatchOperation.apply at h ⊢
    dsimp only at h ⊢
    split at h
    · cases h
    · rename_i hinside
      rw [if_neg hinside]
      split at h
      · rename_i value rest hvalue hrest
        have hrestp := PatchOperation.proper_of_removeAt hd hrest
        obtain ⟨hat, hkept⟩ := at?_filled hd hk (fun hne => hlook hne source rfl) hvalue
        obtain ⟨hremoved, habsent⟩ :=
          edit_filled PatchOperation.editing_remove hd hrestp hk hrest
        rw [hkept] at hremoved habsent
        rw [hat, hremoved]
        exact edit_filled (PatchOperation.editing_add value) hrestp hr habsent h
      · cases h
  | copy source path =>
    unfold PatchOperation.apply at h ⊢
    dsimp only at h ⊢
    split at h
    · rename_i value hvalue
      obtain ⟨hat, -⟩ := at?_filled hd hk (fun hne => hlook hne source rfl) hvalue
      rw [hat]
      exact edit_filled (PatchOperation.editing_add value) hd hr hk h
    · cases h
  | test path value =>
    unfold PatchOperation.apply at h ⊢
    dsimp only at h ⊢
    split at h
    · rename_i found hfound
      split at h
      · rename_i hsame
        cases h
        obtain ⟨hat, -⟩ := at?_filled hd hk (fun hne => hlook hne path rfl) hfound
        rw [hat]
        exact ⟨if_pos hsame, hk⟩
      · cases h
    · cases h

theorem mem_of_unwrittenBy {operation : PatchOperation} {keys : List String} {key : String}
    (h : key ∈ unwrittenBy keys operation) : key ∈ keys := by
  unfold unwrittenBy at h
  split at h
  · exact h
  · exact (List.mem_filter.1 h).1

theorem applyFrom_filled {position : Nat} {patch : Patch} {keys : List String}
    {document result : Json} (hp : patch.Proper) (hd : document.Proper)
    (hk : ∀ key ∈ keys, key ∈ absentMaps document) (hlook : Overlooks keys patch)
    (h : patch.applyFrom position document = .ok result) :
    ∃ left, patch.applyFrom position (fillMaps keys document) = .ok (fillMaps left result) ∧
      ∀ key ∈ left, key ∈ keys ∧ key ∈ absentMaps result := by
  induction patch generalizing position keys document with
  | nil =>
    cases h
    exact ⟨keys, rfl, fun key hkey => ⟨hkey, hk key hkey⟩⟩
  | cons operation rest ih =>
    obtain ⟨hhead, hrest⟩ := List.forall_mem_cons.1 hp
    rw [Patch.applyFrom] at h
    split at h
    · rename_i next hnext
      obtain ⟨hfilled, habsent⟩ := apply_filled hhead hd hk hlook.1 hnext
      obtain ⟨left, hleft, hin⟩ := ih hrest (PatchOperation.proper_of_apply hhead hd hnext)
        habsent hlook.2 h
      refine ⟨left, ?_, fun key hkey => ⟨mem_of_unwrittenBy (hin key hkey).1, (hin key hkey).2⟩⟩
      rw [Patch.applyFrom, hfilled]
      exact hleft
    · cases h

/-! ## 5. the object that comes of it -/

/-- A metadata map, unless it is empty and under one of the keys. -/
def keepMap (keys : List String) (key : String) (texts? : Option (Dict String)) :
    Option (Dict String) :=
  if key ∈ keys ∧ texts? = some ∅ then none else texts?

/-- **The object without those metadata maps under the keys that are empty.** -/
def dropEmpty (keys : List String) (o : Object) : Object :=
  { o with metadata := { o.metadata with
      annotations := keepMap keys "annotations" o.metadata.annotations
      labels := keepMap keys "labels" o.metadata.labels } }

section Reading

variable {keys : List String} {metadata : Fields Json}

theorem eq_of_asDict {value : Json} (h : value.asDict Json.asText = .ok ∅) : value = .obj [] := by
  obtain ⟨fields, hfields, h⟩ := bind_eq_ok.1 h
  obtain ⟨pairs, hpairs, h⟩ := bind_eq_ok.1 h
  have hsort : Fields.sort pairs = [] := congrArg Dict.fields (Except.ok.inj h)
  have hnil : pairs = [] := by
    cases pairs with
    | nil => rfl
    | cons pair rest =>
      have hget := Fields.get?_sort (pair :: rest) pair.1
      rw [hsort, Fields.get?_nil, eq_comm, Fields.get?_eq_none_iff] at hget
      exact absurd rfl (hget pair (by simp))
  subst hnil
  cases value with
  | obj fields' =>
    cases hfields
    have hlen := (mapM_eq_ok.1 hpairs).length_eq
    rw [List.length_nil, List.length_eq_zero_iff] at hlen
    rw [hlen]
  | _ => cases hfields

theorem nullable_pruned {key : String} {texts? : Option (Dict String)}
    (h : metadata.nullable key (Json.asDict Json.asText) = .ok texts?) :
    (pruned keys metadata).nullable key (Json.asDict Json.asText) =
      .ok (keepMap keys key texts?) := by
  unfold keepMap
  have hget := get?_pruned keys metadata key
  rcases Decidable.em (key ∈ keys ∧ metadata.get? key = some (.obj [])) with hempty | hfull
  · rw [if_pos hempty] at hget
    have htexts : texts? = some ∅ := by
      unfold Fields.nullable at h
      rw [hempty.2] at h
      exact (Except.ok.inj h).symm
    rw [if_pos ⟨hempty.1, htexts⟩]
    unfold Fields.nullable
    rw [hget]
  · rw [if_neg hfull] at hget
    rw [Fields.nullable_of_get? hget, h, if_neg]
    rintro ⟨hin, rfl⟩
    obtain ⟨value, hvalue, htexts⟩ := Fields.exists_of_nullable h
    exact hfull ⟨hin, by rw [hvalue, eq_of_asDict htexts]⟩

theorem readFrom_pruned {m : ObjectMeta} (hkeys : ∀ key ∈ keys, key ∈ metadataMaps)
    (h : ObjectMeta.ReadFrom id metadata m) :
    ObjectMeta.ReadFrom id (pruned keys metadata) { m with
      annotations := keepMap keys "annotations" m.annotations
      labels := keepMap keys "labels" m.labels } := by
  have hother : ∀ {α : Type} {item : Json → Decoded α} {key : String}, key ∉ metadataMaps →
      (pruned keys metadata).nullable key item = metadata.nullable key item := by
    intro α item key hnot
    refine Fields.nullable_of_get? ?_
    rw [get?_pruned, if_neg]
    exact fun hin => hnot (hkeys key hin.1)
  obtain ⟨h1, h2, h3, h4, h5, h6, h7, h8, h9, h10, h11, h12, h13, h14, h15⟩ := h
  refine ⟨nullable_pruned h1, ?_, ?_, ?_, ?_, ?_, ?_, nullable_pruned h8, ?_, ?_, ?_, ?_, ?_, ?_, ?_⟩
  all_goals
    rw [hother (by decide)]
    assumption

/-- **A pruned document is read as the same object**, but for the empty maps. -/
theorem ofJson_pruneMaps {document : Json} {o : Object} (hd : document.Proper)
    (hkeys : ∀ key ∈ keys, key ∈ metadataMaps) (h : Object.ofJson document = .ok o) :
    Object.ofJson (pruneMaps keys document) = .ok (dropEmpty keys o) := by
  obtain ⟨fields, rfl, hmeta, htypes⟩ := Object.ofJson_eq_ok.1 h
  have hsorted : Fields.Sorted fields := (keeps_obj_iff.1 hd).1
  have hfields : (Dict.ofFields fields).fields = fields := hsorted.sort_eq
  rw [hfields] at hmeta
  unfold Fields.defaulted at hmeta
  cases hm : Fields.get? "metadata" fields with
  | none =>
    rw [hm] at hmeta
    have hsame : dropEmpty keys o = o := by
      obtain ⟨types, m, data⟩ := o
      obtain rfl : {} = m := Except.ok.inj hmeta
      simp [dropEmpty, keepMap]
    have hleft : pruneMaps keys (.obj fields) = .obj fields := by
      unfold pruneMaps modifyMetadata
      dsimp only
      rw [hm]
    rw [hsame, hleft, h]
  | some value =>
    rw [hm] at hmeta
    obtain ⟨metadata, rfl, hread⟩ := ObjectMeta.read_eq_ok.1 hmeta
    rw [pruneMaps_obj hm]
    have hupdated := (hsorted.update "metadata" (some (.obj (pruned keys metadata)))).sort_eq
    refine Object.ofJson_eq_ok.2 ⟨_, rfl, ?_, ?_⟩
    · show Fields.defaulted _ _ _ (Fields.sort _) = _
      rw [hupdated]
      unfold Fields.defaulted
      rw [Fields.get?_update, if_pos rfl]
      exact ObjectMeta.read_obj.2 (readFrom_pruned hkeys hread)
    · refine Eq.trans (congrArg Object.takeTypes (Dict.ext ?_)) htypes
      show Fields.update "metadata" none (Fields.sort _) = Fields.update "metadata" none (Fields.sort _)
      rw [hupdated, hsorted.sort_eq, hsorted.update_update]

end Reading

theorem absentMaps_sub {document : Json} : ∀ key ∈ absentMaps document, key ∈ metadataMaps :=
  fun _ h => (mem_absentMaps.1 h).1

/-- Applying a patch to an object with filled-in maps gives the object that applying it to the object
as it is written gives, but for the maps that are empty and were not there. -/
theorem patchObject_eq {patch : Patch} {object decoded : Object} {document : Json}
    (hp : patch.Proper) (hd : object.toJson.Proper)
    (hlook : Overlooks (absentMaps object.toJson) patch)
    (happly : patch.apply object.toJson = .ok document)
    (hdecode : Object.ofJson document = .ok decoded) :
    patchObject patch object = .ok (dropEmpty (absentMaps object.toJson) decoded) := by
  obtain ⟨left, hleft, hin⟩ := applyFrom_filled hp hd (fun key h => h) hlook happly
  have hdocument : document.Proper := hd.patch hp happly
  have hpruned : pruneMaps (absentMaps object.toJson) (fillMaps left document) =
      pruneMaps (absentMaps object.toJson) document := by
    rcases Decidable.em (left = []) with rfl | hne
    · rw [fillMaps_nil hdocument]
    · obtain ⟨fields, metadata, rfl, hm, hnone⟩ :=
        exists_metadata (fun key h => (hin key h).2) hne
      have hsorted : Fields.Sorted fields := (keeps_obj_iff.1 hdocument).1
      have hmsorted : Fields.Sorted metadata := (keeps_obj_iff.1 (hdocument.field hm)).1
      have hfilled : Fields.get? "metadata" (Fields.update "metadata"
          (some (.obj (filled left metadata))) fields) = some (.obj (filled left metadata)) := by
        rw [Fields.get?_update, if_pos rfl]
      rw [fillMaps_obj hm, pruneMaps_obj hfilled, pruneMaps_obj hm, hsorted.update_update,
        pruned_filled hmsorted (fun key h => (hin key h).1) hnone]
  unfold patchObject
  dsimp only
  rw [show patch.apply (fillMaps (absentMaps object.toJson) object.toJson) = _ from hleft]
  dsimp only
  rw [hpruned, ofJson_pruneMaps hdocument absentMaps_sub hdecode]

end Mutation

/-! ## 6. a webhook that patches -/

namespace MutatingDispatch

open Mutation

/-- **A patch that applies to the object as it was sent applies.**  If a webhook allows a request with
a patch, and the patch makes of the object as the webhook was sent it a document that is an object, and
overlooks the maps that the object lacks, the request goes on with that object, but for maps that are
empty and were not sent.  Defaults are filled in after that. -/
theorem step_patches_as_sent {σ : Type} (caller : Caller σ) (scheme : Scheme) (request : Request)
    (index : Nat) (invocation : Invocation) (run : Run σ) {objects : Versioned} {review : Review}
    {response : ReviewResponse} {patch : Patch} {sent document : Json} {decoded : Object}
    (hobjects : objectsFor scheme request invocation.kind run.objects = .ok objects)
    (hsent : (caller.call request invocation objects run.world).1.sent = some review)
    (hobject : review.request.bind (·.object) = some sent)
    (hproper : sent.Proper)
    (hanswer : (caller.call request invocation objects run.world).1.outcome = .ok response)
    (hallowed : response.allowed = true)
    (hpatch : patchOf response = .ok patch) (hne : patch ≠ [])
    (hlook : Overlooks (absentMaps sent) patch)
    (happly : patch.apply sent = .ok document)
    (hdecode : Object.ofJson document = .ok decoded) :
    ∃ after, step caller scheme request index invocation run = (none, after) ∧
      after.objects = some { objects with
        object := some (scheme.applyDefaults (dropEmpty (absentMaps sent) decoded))
        dirty := true } := by
  rw [Caller.sent_call caller request invocation objects run.world hsent] at hobject
  obtain ⟨object, ho, rfl⟩ := Option.map_eq_some_iff.1 hobject
  generalize hcall : caller.call request invocation objects run.world = called at hanswer
  obtain ⟨report, world⟩ := called
  -- the call does not end the request, so its patch is what becomes of the object
  have hread : report.patch? = .ok patch := by
    unfold CallReport.patch?
    rw [hanswer]
    exact (if_pos hallowed).trans hpatch
  have hgoes : report.abort? invocation.webhook = none := by
    unfold CallReport.abort?
    rw [hanswer]
    exact if_pos hallowed
  have hconclude : conclude scheme invocation.webhook report objects.object =
      .ok (some (scheme.applyDefaults (dropEmpty (absentMaps object.toJson) decoded))) := by
    unfold conclude
    rw [hgoes, hread, ho]
    show amend scheme invocation.webhook.name patch (some object) = _
    unfold amend
    rw [if_neg hne]
    dsimp only
    rw [patchObject_eq (proper_of_patchOf hpatch) hproper hlook happly hdecode]
    rfl
  have hdirty : report.patches = true := by
    unfold CallReport.patches
    rw [hread]
    simpa using hne
  have hstep := step_called caller scheme request index invocation run
    ((objectsFor_eq _ _ _ _).symm.trans hobjects) hcall
  rw [hconclude] at hstep
  obtain ⟨after, hafter, -, -, hobjects'⟩ := hstep
  refine ⟨after, hafter, ?_⟩
  rw [hobjects', hdirty, Bool.or_true]

/-! ### a pod without labels -/

/-- A webhook server that allows every request with a patch. -/
def patching (patch : String) : Caller Unit where
  Handle := Unit
  connect _ world := (.ok (), world)
  post _ review _ world :=
    (⟨.ok {
      apiVersion := Review.version
      kind := Review.kindName
      response := some {
        uid := (review.request.map (·.uid)).getD ""
        allowed := true
        patch := some (Utf8.encode patch)
        patchType := some Review.jsonPatch } }, ⟨0⟩⟩, world)
  defaultTimeout := ⟨0⟩

/-- A pod with a name and nothing else. -/
def namedPod : Object := ⟨some ⟨"v1", "Pod"⟩, { name := some "web" }, ∅⟩

/-- The request that creates it. -/
def podCreation : Request where
  uid := "req-uid"
  kind := ⟨"", "v1", "Pod"⟩
  resource := ⟨"", "v1", "pods"⟩
  operation := .create
  object := some namedPod

/-- The webhook that is called for it. -/
def podInvocation : Invocation :=
  ⟨.bare "patcher" .mutating, podCreation.resource, "", podCreation.kind⟩

/-- Kinds that agree on their fields, and no defaults. -/
def plainScheme : Scheme := ⟨.relabel, id, .empty⟩

/-- Before the first webhook. -/
def firstRun : Run Unit := ⟨none, ⟨.empty, {}, []⟩, [], ()⟩

/-- Adds labels, none at all. -/
def emptyLabels : String := "[\x7b\"op\":\"add\",\"path\":\"/metadata/labels\",\"value\":\x7b\x7d\x7d]"

/-- Labels that are added without any in them are left out again. -/
theorem step_patches_as_sent_empty_labels :
    ∃ after, step (patching emptyLabels) plainScheme podCreation 0 podInvocation firstRun =
        (none, after) ∧
      after.objects = some { Versioned.submitted podCreation with dirty := true } := by
  have hobjects : objectsFor plainScheme podCreation podInvocation.kind firstRun.objects =
      .ok (Versioned.submitted podCreation) := by decide +kernel
  have hsent : ((patching emptyLabels).call podCreation podInvocation
      (Versioned.submitted podCreation) firstRun.world).1.sent =
        some (Review.ask podCreation podInvocation (some namedPod) none) := by decide +kernel
  have hproper : namedPod.Proper :=
    ⟨fun _ h => by (cases h), fun _ h => by (cases h)⟩
  have hanswer : ((patching emptyLabels).call podCreation podInvocation
      (Versioned.submitted podCreation) firstRun.world).1.outcome = .ok {
        uid := "req-uid"
        allowed := true
        patch := some (Utf8.encode emptyLabels)
        patchType := some Review.jsonPatch } := by decide +kernel
  have hpatch : patchOf {
      uid := "req-uid"
      allowed := true
      patch := some (Utf8.encode emptyLabels)
      patchType := some Review.jsonPatch } = .ok [.add ["metadata", "labels"] (.obj [])] := by
    decide +kernel
  have hlook : Overlooks (absentMaps namedPod.toJson) [.add ["metadata", "labels"] (.obj [])] :=
    ⟨fun _ _ h => by (cases h), trivial⟩
  have happly : Patch.apply [.add ["metadata", "labels"] (.obj [])] namedPod.toJson = .ok
      (.obj [("apiVersion", .str "v1"), ("kind", .str "Pod"),
        ("metadata", .obj [("labels", .obj []), ("name", .str "web")])]) := by decide +kernel
  have hdecode : Object.ofJson (.obj [("apiVersion", .str "v1"), ("kind", .str "Pod"),
      ("metadata", .obj [("labels", .obj []), ("name", .str "web")])]) =
        .ok { namedPod with metadata := { name := some "web", labels := some ∅ } } := by
    decide +kernel
  have hstep := step_patches_as_sent (patching emptyLabels) plainScheme podCreation 0 podInvocation
    firstRun hobjects hsent rfl hproper.toJson hanswer rfl hpatch (by decide) hlook happly hdecode
  have hdropped : dropEmpty (absentMaps namedPod.toJson)
      { namedPod with metadata := { name := some "web", labels := some ∅ } } = namedPod := by
    decide +kernel
  rw [hdropped] at hstep
  exact hstep

/-- Compares the metadata as they were sent, and then adds labels. -/
def comparedLabels : String :=
  "[\x7b\"op\":\"test\",\"path\":\"/metadata\",\"value\":\x7b\"name\":\"web\"\x7d\x7d," ++
    "\x7b\"op\":\"add\",\"path\":\"/metadata/labels\",\"value\":\x7b\"a\":\"b\"\x7d\x7d]"

/-- **A patch that compares the metadata as a whole is refused**, although it applies to the object as it
was sent and makes an object of it: the metadata it is applied to have maps that were not sent. -/
theorem step_refuses_compared_metadata :
    ∃ response patch sent document decoded e,
      ((patching comparedLabels).call podCreation podInvocation
        (Versioned.submitted podCreation) firstRun.world).1.outcome = .ok response ∧
      response.allowed = true ∧ patchOf response = .ok patch ∧ patch ≠ [] ∧
      (((patching comparedLabels).call podCreation podInvocation
        (Versioned.submitted podCreation) firstRun.world).1.sent.bind
          fun review => review.request.bind (·.object)) = some sent ∧
      patch.apply sent = .ok document ∧ Object.ofJson document = .ok decoded ∧
      (step (patching comparedLabels) plainScheme podCreation 0 podInvocation firstRun).1 =
        some e := by
  refine ⟨{
      uid := "req-uid"
      allowed := true
      patch := some (Utf8.encode comparedLabels)
      patchType := some Review.jsonPatch },
    [.test ["metadata"] (.obj [("name", .str "web")]),
      .add ["metadata", "labels"] (.obj [("a", .str "b")])],
    namedPod.toJson,
    .obj [("apiVersion", .str "v1"), ("kind", .str "Pod"),
      ("metadata", .obj [("labels", .obj [("a", .str "b")]), ("name", .str "web")])],
    { namedPod with metadata := { name := some "web", labels := some (Dict.ofFields [("a", "b")]) } },
    .internal "operation '/0' failed at path '/metadata': value did not match",
    ?_, ?_, ?_, ?_, ?_, ?_, ?_, ?_⟩
  all_goals decide +kernel

end MutatingDispatch

end Admission
