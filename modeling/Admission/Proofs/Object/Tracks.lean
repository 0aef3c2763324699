import Mathlib.Data.List.Nodup
import Admission.Proofs.Object.Same
import Admission.Proofs.Time

/-!
# Diffs between what is written of things that were read

A thing that was read need not be written as it was given: fields are dropped, filled in and written in
another form.  Still the diff of what is written of two things can be applied to what the first one was
read of, and makes of it what is read as the second one, as long as there is a place for everything
that is written (`Json.Tracks`).

This holds of each reader with its writer: for those that write what they read because the diff leads
to the new value (`Tracks.exact`), for instants because they are read back from their text, for lists
and records because a diff goes to each of their parts by itself (`Tracks.list`, `becomes_record`).
-/

namespace Admission

namespace Json

/-! ## 1. readers with their writers -/

section Tracks

variable {α : Type} {ready : Json → Prop} {rel : α → α → Prop} {item : Json → Decoded α}
  {write : α → Json}

/-- **A reader and a writer that go together**, for values that are ready. -/
structure Tracks (ready : Json → Prop) (rel : α → α → Prop) (item : Json → Decoded α)
    (write : α → Json) : Prop where
  refl : ∀ {value : Json} {a : α}, value.Proper → item value = .ok a → rel a a
  /-- What is written of a thing that was read is read as that thing. -/
  restores : ∀ {value : Json} {a : α}, value.Proper → value ≠ .null → item value = .ok a →
    write a ≠ .null ∧ item (write a) = .ok a
  /-- The diff to another thing makes of what was read something that is read as the other. -/
  becomes : ∀ {start value : Json} {a b : α}, start.Proper → start ≠ .null → ready start →
    item start = .ok a → value.Proper → value ≠ .null → item value = .ok b →
      ∃ result c, Becomes (write a) (write b) start result ∧ result ≠ .null ∧
        item result = .ok c ∧ rel c b

theorem Tracks.exact (hf : Follows rel item) (hexact : ∀ {value : Json} {a : α}, value.Proper →
    value ≠ .null → item value = .ok a → write a = value) : Tracks (fun _ => True) rel item write where
  refl := by
    intro value a hv h
    obtain ⟨b, hb, hrel⟩ := hf hv.same_refl h
    rw [h] at hb
    cases hb
    exact hrel
  restores := by
    intro value a hv hne h
    rw [hexact hv hne h]
    exact ⟨hne, h⟩
  becomes := by
    intro start value a b hs hsne _ ha hv hne hb
    obtain ⟨result, hresult, hsame⟩ := Proper.becomes hv hs
    obtain ⟨c, hc, hrel⟩ := hf hsame hb
    rw [hexact hs hsne ha, hexact hv hne hb]
    refine ⟨result, c, hresult, fun hnull => ?_, hc, hrel⟩
    rw [hnull] at hsame
    cases value with
    | null => exact hne rfl
    | _ => cases hsame

theorem tracks_text : Tracks (fun _ => True) Eq asText Json.str := by
  refine .exact follows_asText fun {value a} _ _ h => ?_
  cases value <;> cases h
  rfl

theorem tracks_bool : Tracks (fun _ => True) Eq asBool Json.bool := by
  refine .exact follows_asBool fun {value a} _ _ h => ?_
  cases value <;> cases h
  rfl

theorem tracks_int64 : Tracks (fun _ => True) Eq asInt64 Json.int := by
  refine .exact follows_asInt64 fun {value a} _ _ h => ?_
  cases value with
  | int n =>
    unfold asInt64 asSigned at h
    dsimp only at h
    split at h <;> cases h
    rfl
  | _ => cases h

theorem tracks_any : Tracks (fun _ => True) (fun a b => a.same b = true) Except.ok id :=
  .exact follows_ok fun _ _ h => by cases h; rfl

theorem eq_str_of_asText {value : Json} {text : String} (h : value.asText = .ok text) :
    value = .str text := by
  cases value <;> cases h
  rfl

theorem tracks_strings : Tracks (fun _ => True) Eq (asList asText) ofStrings := by
  refine .exact follows_asText.asListEq fun {value texts} _ _ h => ?_
  cases value with
  | arr items =>
    have hitems := mapM_eq_ok.1 (show items.mapM asText = .ok texts from h)
    have hmap : texts.map Json.str = items := by
      rw [← List.forall₂_eq_eq_eq, List.forall₂_map_left_iff]
      exact hitems.flip.imp fun _ _ hx => (eq_str_of_asText hx).symm
    exact congrArg arr hmap
  | _ => cases h

theorem tracks_texts : Tracks (fun _ => True) Eq (asDict asText) ofTexts := by
  refine .exact follows_asDict fun {value texts} hv _ h => ?_
  obtain ⟨fields, hfields, h⟩ := bind_eq_ok.1 h
  obtain ⟨pairs, hpairs, h⟩ := bind_eq_ok.1 h
  cases h
  cases value with
  | obj fields' =>
    cases hfields
    have hmap : pairs.map (fun pair => (pair.1, Json.str pair.2)) = fields := by
      rw [← List.forall₂_eq_eq_eq, List.forall₂_map_left_iff]
      refine (mapM_eq_ok.1 hpairs).flip.imp fun pair given hx => ?_
      obtain ⟨text, htext, hx⟩ := bind_eq_ok.1 hx
      cases hx
      rw [← eq_str_of_asText htext]
    -- the texts stand in the order of the fields, so sorting them changes nothing
    have hsorted : Fields.Sorted pairs := by
      have hkeys := (keeps_obj_iff.1 hv).1
      rw [← hmap, Fields.Sorted, List.pairwise_map] at hkeys
      exact hkeys
    have hsort : (Dict.ofFields pairs).fields = pairs := hsorted.sort_eq
    show obj ((Dict.ofFields pairs).fields.map _) = obj fields
    rw [hsort, hmap]
  | _ => cases hfields

theorem becomes_text (a b : String) (start : Json) :
    Becomes (.str a) (.str b) start (if a = b then start else .str b) := by
  have hsame : (Json.str a).same (.str b) = decide (a = b) := rfl
  intro path around hp
  have hleaf := becomes_leaf (.str a) (.str b) start (fun _ h => by cases h)
    (fun _ h => by cases h) hp
  rw [hsame] at hleaf
  simpa only [decide_eq_true_eq] using hleaf

theorem tracks_instant : Tracks (fun _ => True) Eq asInstant fun t => .str t.text := by
  have hback : ∀ t : Time.Instant, (Json.str t.text).asInstant = .ok t := fun t => by
    simp only [asInstant, asText, bind, Except.bind, t.ofText?_text]
  refine { refl := fun _ _ => rfl, restores := fun _ _ _ => ⟨nofun, hback _⟩, becomes := ?_ }
  intro start value a b _ hne _ ha _ _ _
  refine ⟨_, b, becomes_text a.text b.text start, ?_⟩
  split
  · rename_i heq
    -- the same text, so the same instant
    have hsame := hback a
    rw [heq, hback b] at hsame
    cases hsame
    exact ⟨hne, ha, rfl⟩
  · exact ⟨nofun, hback b, rfl⟩

theorem exists_of_asList {value : Json} {list : List α} (h : asList item value = .ok list) :
    ∃ items, value = .arr items ∧ List.Forall₂ (fun i a => item i = .ok a) items list := by
  cases value with
  | arr items => exact ⟨items, rfl, mapM_eq_ok.1 h⟩
  | _ => cases h

theorem exists_item_of_asList (hnull : ∀ a, item .null ≠ .ok a) {value : Json} {list : List α}
    (hv : value.Proper) (h : asList item value = .ok list) {a : α} (ha : a ∈ list) :
    ∃ i, i.Proper ∧ i ≠ .null ∧ item i = .ok a := by
  obtain ⟨items, rfl, hread⟩ := exists_of_asList h
  obtain ⟨i, hi, hia⟩ := exists_of_mapM_eq_ok (mapM_eq_ok.2 hread) ha
  refine ⟨i, keeps_arr_iff.1 hv i hi, ?_, hia⟩
  rintro rfl
  exact hnull a hia

theorem Tracks.restoresItem (ht : Tracks ready rel item write) (hnull : ∀ a, item .null ≠ .ok a)
    {value : Json} {list : List α} (hv : value.Proper) (h : asList item value = .ok list) {a : α}
    (ha : a ∈ list) : item (write a) = .ok a ∧ rel a a := by
  obtain ⟨i, hi, hne, hia⟩ := exists_item_of_asList hnull hv h ha
  exact ⟨(ht.restores hi hne hia).2, ht.refl hi hia⟩

theorem Tracks.list (ht : Tracks ready rel item write) (hnull : ∀ a, item .null ≠ .ok a) :
    Tracks (fun value => ∀ items, value = .arr items → ∀ i ∈ items, ready i) (List.Forall₂ rel)
      (asList item) (fun list => .arr (list.map write)) := by
  refine {
    refl := fun hv h => List.forall₂_same.2 fun a ha => (ht.restoresItem hnull hv h ha).2
    restores := ?_
    becomes := ?_ }
  · intro value list hv _ h
    refine ⟨nofun, mapM_eq_ok.2 ?_⟩
    rw [List.forall₂_map_left_iff, List.forall₂_same]
    exact fun a ha => (ht.restoresItem hnull hv h ha).1
  · intro start value as bs hs _ hready ha hv _ hb
    obtain ⟨starts, rfl, hstarts⟩ := exists_of_asList ha
    have hgiven : List.Forall₂ (fun now a => (now.Proper ∧ ready now) ∧ item now = .ok a)
        starts as :=
      (List.forall₂_and_left _ _).2
        ⟨fun now hm => ⟨keeps_arr_iff.1 hs now hm, hready starts rfl now hm⟩, hstarts⟩
    -- an item of the result is read as what is written at its place is
    have hadded : ∀ i ∈ bs.map write, ∀ b ∈ bs, write b = i → ∃ c, item i = .ok c ∧ rel c b := by
      rintro i - b hm rfl
      exact ⟨b, ht.restoresItem hnull hv hb hm⟩
    have hchanged : List.Forall₂ (fun before now => ∀ i ∈ bs.map write, ∃ after,
        Becomes before i now after ∧ ∀ b ∈ bs, write b = i → ∃ c, item after = .ok c ∧ rel c b)
        (as.map write) starts := by
      rw [List.forall₂_map_left_iff]
      refine hgiven.flip.imp fun a now h i hi => ?_
      obtain ⟨⟨hp, hr⟩, hnow⟩ := h
      obtain ⟨b, hm, rfl⟩ := List.mem_map.1 hi
      obtain ⟨v, hvp, hvne, hvb⟩ := exists_item_of_asList hnull hv hb hm
      have hne : now ≠ .null := by
        rintro rfl
        exact hnull a hnow
      obtain ⟨after, c, hafter, -, hc, hrel⟩ := ht.becomes hp hne hr hnow hvp hvne hvb
      refine ⟨after, hafter, fun b' hm' hwrite => ?_⟩
      have hsame := (ht.restoresItem hnull hv hb hm').1
      rw [hwrite, (ht.restoresItem hnull hv hb hm).1] at hsame
      cases hsame
      exact ⟨c, hc, hrel⟩
    obtain ⟨result, hresult, hgood⟩ := becomes_arr _ hadded hchanged
    have hread : List.Forall₂ (fun i b => ∃ c, item i = .ok c ∧ rel c b) result bs := by
      rw [List.forall₂_map_right_iff] at hgood
      have hmem := (List.forall₂_and_left _ _).2 ⟨fun b (hm : b ∈ bs) => hm, hgood.flip⟩
      exact hmem.flip.imp fun i b h => h.2 b h.1 rfl
    obtain ⟨cs, hcs, hrels⟩ := exists_mapM_of_forall₂ hread
    exact ⟨.arr result, cs, hresult, nofun, hcs, hrels⟩

end Tracks

/-! ## 2. fields and records -/

section Field

variable {α : Type} {ready : Json → Prop} {rel : α → α → Prop} {item : Json → Decoded α}
  {write : α → Json}

/-- What is read of a field that may be absent, which `null` says too. -/
def readField (item : Json → Decoded α) : Option Json → Decoded (Option α)
  | some value => value.orNull item
  | none => .ok none

theorem nullable_eq_readField (item : Json → Decoded α) (fields : Fields Json) (key : String) :
    fields.nullable key item = readField item (fields.get? key) := by
  unfold Fields.nullable
  cases fields.get? key <;> rfl

theorem orNull_of_ne_null {value : Json} (h : value ≠ .null) :
    value.orNull item = some <$> item value := by
  cases value with
  | null => exact absurd rfl h
  | _ => rfl

theorem readField_eq_ok {value? : Option Json} {a? : Option α}
    (h : readField item value? = .ok a?) :
    (a? = none ∧ ∀ value ∈ value?, value = .null) ∨
      ∃ value a, value? = some value ∧ a? = some a ∧ value ≠ .null ∧ item value = .ok a := by
  cases value? with
  | none =>
    cases h
    exact .inl ⟨rfl, nofun⟩
  | some value =>
    rcases Decidable.em (value = .null) with rfl | hne
    · cases h
      exact .inl ⟨rfl, fun value hm => (Option.mem_some.1 hm).symm⟩
    · right
      rw [readField, orNull_of_ne_null hne] at h
      cases hi : item value with
      | error e =>
        rw [hi] at h
        cases h
      | ok a =>
        rw [hi] at h
        cases h
        exact ⟨value, a, rfl, rfl, hne, hi⟩

theorem readField_some {value : Json} {a : α} (hne : value ≠ .null) (h : item value = .ok a) :
    readField item (some value) = .ok (some a) := by
  rw [readField, orNull_of_ne_null hne, h]
  rfl

theorem readField_null {value? : Option Json} (h : ∀ value ∈ value?, value = .null) :
    readField item value? = .ok none := by
  cases value? with
  | none => rfl
  | some value =>
    rw [h value rfl]
    rfl

theorem Tracks.restoresField (ht : Tracks ready rel item write) {written value? : Option Json}
    {a? : Option α} (hw : written = a?.map write) (hv : ∀ value ∈ value?, value.Proper)
    (h : readField item value? = .ok a?) : readField item written = .ok a? := by
  subst hw
  obtain ⟨rfl, -⟩ | ⟨value, a, rfl, rfl, hne, ha⟩ := readField_eq_ok h
  · rfl
  · obtain ⟨hwne, hback⟩ := ht.restores (hv value rfl) hne ha
    exact readField_some hwne hback

/-- The diff of what is written of fields makes of the first one what is read as the second one. -/
theorem Tracks.becomesField (ht : Tracks ready rel item write) {start other : Option Json}
    {a? b? : Option α} (hs : ∀ value ∈ start, value.Proper ∧ ready value)
    (ha : readField item start = .ok a?) (ho : ∀ value ∈ other, value.Proper)
    (hb : readField item other = .ok b?) :
    ∃ result, FieldBecomes (a?.map write) (b?.map write) start result ∧
      ∃ c?, readField item result = .ok c? ∧ Option.Rel rel c? b? := by
  obtain ⟨rfl, hnull⟩ | ⟨now, a, rfl, rfl, hne, hnow⟩ := readField_eq_ok ha
  · obtain ⟨rfl, -⟩ | ⟨value, b, rfl, rfl, hvne, hvalue⟩ := readField_eq_ok hb
    · exact ⟨start, .kept start, none, readField_null hnull, .none⟩
    · obtain ⟨hwne, hback⟩ := ht.restores (ho value rfl) hvne hvalue
      exact ⟨some (write b), .added (write b) start, some b, readField_some hwne hback,
        .some (ht.refl (ho value rfl) hvalue)⟩
  · obtain ⟨hp, hr⟩ := hs now rfl
    obtain ⟨rfl, -⟩ | ⟨value, b, rfl, rfl, hvne, hvalue⟩ := readField_eq_ok hb
    · exact ⟨none, .removed (write a) now, none, rfl, .none⟩
    · obtain ⟨result, c, hresult, hrne, hc, hrel⟩ :=
        ht.becomes hp hne hr hnow (ho value rfl) hvne hvalue
      exact ⟨some result, .changed hresult, some c, readField_some hrne hc, .some hrel⟩

theorem Tracks.becomesFieldEq (ht : Tracks ready Eq item write) {start other : Option Json}
    {a? b? : Option α} (hs : ∀ value ∈ start, value.Proper ∧ ready value)
    (ha : readField item start = .ok a?) (ho : ∀ value ∈ other, value.Proper)
    (hb : readField item other = .ok b?) :
    ∃ result, FieldBecomes (a?.map write) (b?.map write) start result ∧
      readField item result = .ok b? := by
  obtain ⟨result, hresult, c?, hc, hrel⟩ := ht.becomesField hs ha ho hb
  refine ⟨result, hresult, ?_⟩
  cases hrel with
  | none => exact hc
  | some h => rw [hc, h]

/-- A text that is always written has a place if there is a value, even `null`. -/
theorem becomesField_text {start : Option Json} {a? : Option String} (hs : start.isSome = true)
    (ha : readField asText start = .ok a?) (b : String) :
    ∃ result, FieldBecomes (some (.str (a?.getD ""))) (some (.str b)) start result ∧
      ∃ c?, readField asText result = .ok c? ∧ c?.getD "" = b := by
  obtain ⟨now, rfl⟩ := Option.isSome_iff_exists.1 hs
  refine ⟨some _, .changed (becomes_text _ b now), ?_⟩
  split
  · rename_i heq
    exact ⟨a?, ha, heq⟩
  · exact ⟨some b, rfl, rfl⟩

end Field

/-- A field of a record: what is written of it in two things, and what it is to say afterwards. -/
structure Column where
  key : String
  old : Option Json
  new : Option Json
  good : Option Json → Prop

/-- A field that is to be read afterwards as what is written of the second thing. -/
def Column.reading {α : Type} (key : String) (item : Json → Decoded α) (write : α → Json)
    (a? b? : Option α) : Column where
  key := key
  old := a?.map write
  new := b?.map write
  good after := readField item after = .ok b?

section Record

variable {columns : List Column} (hkeys : (columns.map (·.key)).Pairwise (· < ·))
include hkeys

theorem sorted_columns (value : Column → Option Json) :
    ((columns.map fun column => (column.key, value column)).map (·.1)).Pairwise (· < ·) := by
  rw [List.map_map]
  exact hkeys

theorem field?_of_mem_columns (value : Column → Option Json) {column : Column}
    (hm : column ∈ columns) :
    (ofSome (columns.map fun column => (column.key, value column))).field? column.key =
      value column := by
  have hsorted := sorted_columns hkeys value
  have hpairs : Fields.Sorted (columns.map fun column => (column.key, value column)) :=
    List.pairwise_map.1 hsorted
  rw [field?_ofSome hsorted, hpairs.get?_of_mem
    (List.mem_map_of_mem (f := fun column => (column.key, value column)) hm)]
  rfl

theorem field?_of_notMem_columns (value : Column → Option Json) {key : String}
    (hnot : ∀ column ∈ columns, column.key ≠ key) :
    (ofSome (columns.map fun column => (column.key, value column))).field? key = none := by
  rw [field?_ofSome (sorted_columns hkeys value), Fields.get?_eq_none_iff.2]
  · rfl
  · intro pair hp
    obtain ⟨column, hm, rfl⟩ := List.mem_map.1 hp
    exact hnot column hm

theorem eq_of_key_columns {a b : Column} (ha : a ∈ columns) (hb : b ∈ columns)
    (h : a.key = b.key) : a = b := by
  have hdistinct : (columns.map (·.key)).Nodup := by
    apply hkeys.imp
    rintro x y hlt rfl
    exact String.lt_irrefl x hlt
  exact List.inj_on_of_nodup_map hdistinct ha hb h

/-- **The diff of two records goes to each of their fields by itself.** -/
theorem becomes_record {start : List (String × Json)} (hs : Fields.Sorted start)
    (h : ∀ column ∈ columns, ∃ after,
      FieldBecomes column.old column.new (Fields.get? column.key start) after ∧ column.good after) :
    ∃ result, Becomes (ofSome (columns.map fun column => (column.key, column.old)))
        (ofSome (columns.map fun column => (column.key, column.new))) (obj start) (obj result) ∧
      Fields.Sorted result ∧
      ∀ column ∈ columns, column.good (Fields.get? column.key result) := by
  obtain ⟨result, hresult, hrsorted, hgood⟩ := becomes_obj
    (fun key after => ∀ column ∈ columns, column.key = key → column.good after)
    (sorted_ofSome (sorted_columns hkeys (·.old))) (sorted_ofSome (sorted_columns hkeys (·.new))) hs
    fun key => by
      show ∃ after, FieldBecomes ((ofSome _).field? key) ((ofSome _).field? key) _ after ∧ _
      rcases Decidable.em (∃ column ∈ columns, column.key = key) with ⟨column, hm, rfl⟩ | hnot
      · rw [field?_of_mem_columns hkeys (·.old) hm, field?_of_mem_columns hkeys (·.new) hm]
        obtain ⟨after, hafter, hgood⟩ := h column hm
        refine ⟨after, hafter, fun other ho heq => ?_⟩
        rw [eq_of_key_columns hkeys ho hm heq]
        exact hgood
      · have hnot' : ∀ column ∈ columns, column.key ≠ key := fun column hm heq =>
          hnot ⟨column, hm, heq⟩
        rw [field?_of_notMem_columns hkeys (·.old) hnot',
          field?_of_notMem_columns hkeys (·.new) hnot']
        exact ⟨_, .kept _, fun column hm heq => absurd heq (hnot' column hm)⟩
  exact ⟨result, hresult, hrsorted, fun column hm => hgood column.key column hm rfl⟩

end Record

end Json

/-! ## 3. metadata -/

section Records

open Json (readField nullable_eq_readField field?_ofSome Column FieldBecomes Tracks tracks_text
  tracks_bool tracks_int64 tracks_instant tracks_any tracks_texts tracks_strings)

theorem Fields.nullableD_eq_ok {α : Type} {item : Json → Decoded α} {fields : Fields Json}
    {key : String} {default a : α} : fields.nullableD key default item = .ok a ↔
      ∃ a?, readField item (fields.get? key) = .ok a? ∧ a?.getD default = a := by
  unfold nullableD
  rw [nullable_eq_readField]
  cases readField item (fields.get? key) with
  | error e => exact ⟨fun h => by (cases h), fun ⟨_, h, _⟩ => by (cases h)⟩
  | ok a? =>
    constructor
    · intro h
      exact ⟨a?, rfl, Except.ok.inj h⟩
    · rintro ⟨_, h, rfl⟩
      cases h
      rfl

theorem Json.Proper.fieldReady {fields : Fields Json} (h : (Json.obj fields).Proper) (key : String) :
    ∀ value ∈ Fields.get? key fields, value.Proper ∧ True :=
  fun _ hm => ⟨h.field hm, trivial⟩

namespace OwnerReference

/-- The fields that are always written. -/
def statedNames : List String := ["apiVersion", "kind", "name", "uid"]

/-- Whether a value has all of them. -/
def isStated (value : Json) : Bool := statedNames.all fun key => (value.field? key).isSome

/-- The text of a field, empty if there is none. -/
abbrev Says (field : Option Json) (text : String) : Prop :=
  ∃ text?, readField Json.asText field = .ok text? ∧ text?.getD "" = text

/-- A reference is what each field says. -/
structure ReadFrom (fields : Fields Json) (r : OwnerReference) : Prop where
  apiVersion : Says (fields.get? "apiVersion") r.apiVersion
  blockOwnerDeletion :
    readField Json.asBool (fields.get? "blockOwnerDeletion") = .ok r.blockOwnerDeletion
  controller : readField Json.asBool (fields.get? "controller") = .ok r.controller
  kind : Says (fields.get? "kind") r.kind
  name : Says (fields.get? "name") r.name
  uid : Says (fields.get? "uid") r.uid

theorem ofJson_obj {fields : Fields Json} {r : OwnerReference} :
    ofJson (.obj fields) = .ok r ↔ ReadFrom fields r := by
  constructor
  · intro h
    unfold ofJson at h
    simp only [bind_eq_ok, Json.asFields, pure, Except.pure, Except.ok.injEq,
      Fields.nullableD_eq_ok, nullable_eq_readField] at h
    obtain ⟨_, rfl, _, h1, _, h2, _, h3, _, h4, _, h5, _, h6, rfl⟩ := h
    exact ⟨h1, h6, h5, h2, h3, h4⟩
  · rintro ⟨h1, h6, h5, h2, h3, h4⟩
    unfold ofJson
    simp only [bind_eq_ok, Json.asFields, pure, Except.pure, Except.ok.injEq,
      Fields.nullableD_eq_ok, nullable_eq_readField]
    exact ⟨_, rfl, _, h1, _, h2, _, h3, _, h4, _, h5, _, h6, rfl⟩

theorem exists_of_ofJson {value : Json} {r : OwnerReference} (h : ofJson value = .ok r) :
    ∃ fields, value = .obj fields ∧ ReadFrom fields r := by
  cases value with
  | obj fields => exact ⟨fields, rfl, ofJson_obj.1 h⟩
  | _ => cases h

theorem ofJson_toJson {value : Json} {r : OwnerReference} (hv : value.Proper)
    (h : ofJson value = .ok r) : ofJson r.toJson = .ok r := by
  obtain ⟨fields, rfl, hread⟩ := exists_of_ofJson h
  have hproper : ∀ key, ∀ value ∈ Fields.get? key fields, value.Proper := fun key _ => hv.field
  have hfield : ∀ key, r.toJson.field? key = _ :=
    field?_ofSome (by simp only [List.map_cons, List.map_nil]; decide)
  have hwords : ∀ {field : Option Json} {text : String}, field = some (.str text) →
      Says field text := by
    rintro _ text rfl
    exact ⟨some text, rfl, rfl⟩
  exact ofJson_obj.2 ⟨hwords (hfield _),
    tracks_bool.restoresField (hfield _) (hproper _) hread.blockOwnerDeletion,
    tracks_bool.restoresField (hfield _) (hproper _) hread.controller, hwords (hfield _),
    hwords (hfield _), hwords (hfield _)⟩

theorem tracks : Tracks (fun value => isStated value = true) Eq ofJson toJson := by
  refine {
    refl := fun _ _ => rfl
    restores := fun hv _ h => ⟨nofun, ofJson_toJson hv h⟩
    becomes := ?_ }
  intro start value a b hs _ hready ha hv _ hb
  obtain ⟨fields, rfl, hfa⟩ := exists_of_ofJson ha
  obtain ⟨others, rfl, hfb⟩ := exists_of_ofJson hb
  have hproper : ∀ key, ∀ value ∈ Fields.get? key others, value.Proper := fun key _ => hv.field
  have hwords : ∀ key ∈ statedNames, ∀ {text : String}, Says (Fields.get? key fields) text →
      ∀ other, ∃ after, FieldBecomes (some (.str text)) (some (.str other))
        (Fields.get? key fields) after ∧ Says after other := by
    rintro key hkey _ ⟨text?, htext, rfl⟩ other
    exact Json.becomesField_text (List.all_eq_true.1 hready key hkey) htext other
  let columns : List Column := [
    ⟨"apiVersion", some (.str a.apiVersion), some (.str b.apiVersion),
      fun after => Says after b.apiVersion⟩,
    .reading "blockOwnerDeletion" Json.asBool .bool a.blockOwnerDeletion b.blockOwnerDeletion,
    .reading "controller" Json.asBool .bool a.controller b.controller,
    ⟨"kind", some (.str a.kind), some (.str b.kind), fun after => Says after b.kind⟩,
    ⟨"name", some (.str a.name), some (.str b.name), fun after => Says after b.name⟩,
    ⟨"uid", some (.str a.uid), some (.str b.uid), fun after => Says after b.uid⟩]
  have hkeys : (columns.map (·.key)).Pairwise (· < ·) := by
    simp only [columns, Json.Column.reading, List.map_cons, List.map_nil]
    decide
  have hcolumns : ∀ column ∈ columns, ∃ after, FieldBecomes column.old column.new
      (Fields.get? column.key fields) after ∧ column.good after := by
    simp only [columns, List.forall_mem_cons, List.not_mem_nil, IsEmpty.forall_iff, implies_true,
      and_true]
    exact ⟨hwords "apiVersion" (by decide) hfa.apiVersion _,
      tracks_bool.becomesFieldEq (hs.fieldReady _) hfa.blockOwnerDeletion (hproper _)
        hfb.blockOwnerDeletion,
      tracks_bool.becomesFieldEq (hs.fieldReady _) hfa.controller (hproper _) hfb.controller,
      hwords "kind" (by decide) hfa.kind _, hwords "name" (by decide) hfa.name _,
      hwords "uid" (by decide) hfa.uid _⟩
  obtain ⟨result, hresult, -, hgood⟩ :=
    Json.becomes_record hkeys (Json.keeps_obj_iff.1 hs).1 hcolumns
  simp only [columns, List.forall_mem_cons, List.not_mem_nil, IsEmpty.forall_iff, implies_true,
    and_true] at hgood
  obtain ⟨h1, h2, h3, h4, h5, h6⟩ := hgood
  exact ⟨.obj result, b, hresult, nofun, ofJson_obj.2 ⟨h1, h2, h3, h4, h5, h6⟩, rfl⟩

end OwnerReference

namespace ManagedFields

/-- An entry is what each field says. -/
structure ReadFrom (fields : Fields Json) (m : ManagedFields) : Prop where
  apiVersion : readField Json.asText (fields.get? "apiVersion") = .ok m.apiVersion
  fieldsType : readField Json.asText (fields.get? "fieldsType") = .ok m.fieldsType
  fieldsV1 : readField .ok (fields.get? "fieldsV1") = .ok m.fieldsV1
  manager : readField Json.asText (fields.get? "manager") = .ok m.manager
  operation : readField Json.asText (fields.get? "operation") = .ok m.operation
  subresource : readField Json.asText (fields.get? "subresource") = .ok m.subresource
  time : readField Json.asInstant (fields.get? "time") = .ok m.time

theorem ofJson_obj {fields : Fields Json} {m : ManagedFields} :
    ofJson (.obj fields) = .ok m ↔ ReadFrom fields m := by
  constructor
  · intro h
    unfold ofJson at h
    simp only [bind_eq_ok, Json.asFields, pure, Except.pure, Except.ok.injEq,
      nullable_eq_readField] at h
    obtain ⟨_, rfl, _, h1, _, h2, _, h3, _, h4, _, h5, _, h6, _, h7, rfl⟩ := h
    exact ⟨h1, h2, h3, h4, h5, h6, h7⟩
  · rintro ⟨h1, h2, h3, h4, h5, h6, h7⟩
    unfold ofJson
    simp only [bind_eq_ok, Json.asFields, pure, Except.pure, Except.ok.injEq,
      nullable_eq_readField]
    exact ⟨_, rfl, _, h1, _, h2, _, h3, _, h4, _, h5, _, h6, _, h7, rfl⟩

theorem exists_of_ofJson {value : Json} {m : ManagedFields} (h : ofJson value = .ok m) :
    ∃ fields, value = .obj fields ∧ ReadFrom fields m := by
  cases value with
  | obj fields => exact ⟨fields, rfl, ofJson_obj.1 h⟩
  | _ => cases h

theorem ofJson_toJson {value : Json} {m : ManagedFields} (hv : value.Proper)
    (h : ofJson value = .ok m) : ofJson m.toJson = .ok m := by
  obtain ⟨fields, rfl, hread⟩ := exists_of_ofJson h
  have hproper : ∀ key, ∀ value ∈ Fields.get? key fields, value.Proper := fun key _ => hv.field
  have hfield : ∀ key, m.toJson.field? key = _ :=
    field?_ofSome (by simp only [List.map_cons, List.map_nil]; decide)
  exact ofJson_obj.2 ⟨tracks_text.restoresField (hfield _) (hproper _) hread.apiVersion,
    tracks_text.restoresField (hfield _) (hproper _) hread.fieldsType,
    tracks_any.restoresField ((hfield _).trans Option.map_id'.symm) (hproper _) hread.fieldsV1,
    tracks_text.restoresField (hfield _) (hproper _) hread.manager,
    tracks_text.restoresField (hfield _) (hproper _) hread.operation,
    tracks_text.restoresField (hfield _) (hproper _) hread.subresource,
    tracks_instant.restoresField (hfield _) (hproper _) hread.time⟩

theorem same_refl {m : ManagedFields} (h : ∀ value, m.fieldsV1 = some value → value.Proper) :
    m.Same m := by
  refine ⟨?_, rfl⟩
  cases hfields : m.fieldsV1 with
  | none => exact .none
  | some value => exact .some (h value hfields).same_refl

theorem tracks : Tracks (fun _ => True) Same ofJson toJson := by
  refine {
    refl := fun hv h => same_refl (proper_of_ofJson hv h)
    restores := fun hv _ h => ⟨nofun, ofJson_toJson hv h⟩
    becomes := ?_ }
  intro start value a b hs _ hready ha hv _ hb
  obtain ⟨fields, rfl, hfa⟩ := exists_of_ofJson ha
  obtain ⟨others, rfl, hfb⟩ := exists_of_ofJson hb
  have hproper : ∀ key, ∀ value ∈ Fields.get? key others, value.Proper := fun key _ => hv.field
  have hany := tracks_any.becomesField (hs.fieldReady "fieldsV1") hfa.fieldsV1 (hproper _)
    hfb.fieldsV1
  rw [Option.map_id, id, id] at hany
  let columns : List Column := [
    .reading "apiVersion" Json.asText .str a.apiVersion b.apiVersion,
    .reading "fieldsType" Json.asText .str a.fieldsType b.fieldsType,
    ⟨"fieldsV1", a.fieldsV1, b.fieldsV1, fun after => ∃ c, readField .ok after = .ok c ∧
      Option.Rel (fun x y => x.same y = true) c b.fieldsV1⟩,
    .reading "manager" Json.asText .str a.manager b.manager,
    .reading "operation" Json.asText .str a.operation b.operation,
    .reading "subresource" Json.asText .str a.subresource b.subresource,
    .reading "time" Json.asInstant (fun t => .str t.text) a.time b.time]
  have hkeys : (columns.map (·.key)).Pairwise (· < ·) := by
    simp only [columns, Json.Column.reading, List.map_cons, List.map_nil]
    decide
  have hcolumns : ∀ column ∈ columns, ∃ after, FieldBecomes column.old column.new
      (Fields.get? column.key fields) after ∧ column.good after := by
    simp only [columns, List.forall_mem_cons, List.not_mem_nil, IsEmpty.forall_iff, implies_true,
      and_true]
    exact ⟨tracks_text.becomesFieldEq (hs.fieldReady _) hfa.apiVersion (hproper _) hfb.apiVersion,
      tracks_text.becomesFieldEq (hs.fieldReady _) hfa.fieldsType (hproper _) hfb.fieldsType,
      hany,
      tracks_text.becomesFieldEq (hs.fieldReady _) hfa.manager (hproper _) hfb.manager,
      tracks_text.becomesFieldEq (hs.fieldReady _) hfa.operation (hproper _) hfb.operation,
      tracks_text.becomesFieldEq (hs.fieldReady _) hfa.subresource (hproper _) hfb.subresource,
      tracks_instant.becomesFieldEq (hs.fieldReady _) hfa.time (hproper _) hfb.time⟩
  obtain ⟨result, hresult, -, hgood⟩ :=
    Json.becomes_record hkeys (Json.keeps_obj_iff.1 hs).1 hcolumns
  simp only [columns, List.forall_mem_cons, List.not_mem_nil, IsEmpty.forall_iff, implies_true,
    and_true] at hgood
  obtain ⟨h1, h2, ⟨fieldsV1, h3, hsame⟩, h4, h5, h6, h7⟩ := hgood
  exact ⟨.obj result, { b with fieldsV1 := fieldsV1 }, hresult, nofun,
    ofJson_obj.2 ⟨h1, h2, h3, h4, h5, h6, h7⟩, hsame, rfl⟩

end ManagedFields

namespace ObjectMeta

theorem tracks_managedFields : Tracks (fun value => ∀ items, value = .arr items → ∀ i ∈ items, True)
    (List.Forall₂ ManagedFields.Same) (Json.asList ManagedFields.ofJson)
    (fun list => .arr (list.map ManagedFields.toJson)) :=
  ManagedFields.tracks.list fun _ h => by cases h

theorem tracks_ownerReferences : Tracks
    (fun value => ∀ items, value = .arr items → ∀ i ∈ items, OwnerReference.isStated i = true) Eq
    (Json.asList OwnerReference.ofJson) (fun list => .arr (list.map OwnerReference.toJson)) := by
  have h := OwnerReference.tracks.list fun _ h => by cases h
  rwa [List.forall₂_eq_eq_eq] at h

theorem same_refl {m : ObjectMeta} (h : m.Proper) : m.Same m := by
  refine ⟨?_, rfl⟩
  cases hlist : m.managedFields with
  | none => exact .none
  | some list =>
    exact .some (List.forall₂_same.2 fun entry he => ManagedFields.same_refl (h list hlist entry he))

/-- Whether metadata as they were given have a place for all that changes in what is written of them: if
the owner references change, each has the fields that are always written. -/
def hasPlaces (metadata : Json) (before after : ObjectMeta) : Bool :=
  before.ownerReferences = after.ownerReferences ||
    match metadata.field? "ownerReferences" with
    | some (.arr references) => references.all OwnerReference.isStated
    | _ => true

theorem ofJson_toJson {value : Json} {m : ObjectMeta} (hv : value.Proper)
    (h : ofJson value = .ok m) : ofJson m.toJson = .ok m := by
  obtain ⟨fields, rfl, hread⟩ := read_eq_ok.1 h
  have hproper : ∀ key, ∀ value ∈ Fields.get? key fields, value.Proper := fun key _ => hv.field
  have hfield : ∀ key, m.toJson.field? key = _ :=
    field?_ofSome (by simp only [List.map_cons, List.map_nil]; decide)
  obtain ⟨h1, h2, h3, h4, h5, h6, h7, h8, h9, h10, h11, h12, h13, h14, h15⟩ := hread
  simp only [nullable_eq_readField] at h1 h2 h3 h4 h5 h6 h7 h8 h9 h10 h11 h12 h13 h14 h15
  refine read_obj.2 ⟨?_, ?_, ?_, ?_, ?_, ?_, ?_, ?_, ?_, ?_, ?_, ?_, ?_, ?_, ?_⟩
  all_goals rw [nullable_eq_readField]
  · exact tracks_texts.restoresField (hfield _) (hproper _) h1
  · exact tracks_instant.restoresField (hfield _) (hproper _) h2
  · exact tracks_int64.restoresField (hfield _) (hproper _) h3
  · exact tracks_instant.restoresField (hfield _) (hproper _) h4
  · exact tracks_strings.restoresField (hfield _) (hproper _) h5
  · exact tracks_text.restoresField (hfield _) (hproper _) h6
  · exact tracks_int64.restoresField (hfield _) (hproper _) h7
  · exact tracks_texts.restoresField (hfield _) (hproper _) h8
  · exact tracks_managedFields.restoresField (hfield _) (hproper _) h9
  · exact tracks_text.restoresField (hfield _) (hproper _) h10
  · exact tracks_text.restoresField (hfield _) (hproper _) h11
  · exact tracks_ownerReferences.restoresField (hfield _) (hproper _) h12
  · exact tracks_text.restoresField (hfield _) (hproper _) h13
  · exact tracks_text.restoresField (hfield _) (hproper _) h14
  · exact tracks_text.restoresField (hfield _) (hproper _) h15

/-- Owner references that do not change are left alone, and others have a place. -/
theorem becomes_ownerReferences {fields : Fields Json} {a b : ObjectMeta}
    (hs : (Json.obj fields).Proper) (hplaces : hasPlaces (.obj fields) a b = true)
    (ha : readField (Json.asList OwnerReference.ofJson) (fields.get? "ownerReferences") =
      .ok a.ownerReferences) {other : Option Json} (ho : ∀ value ∈ other, value.Proper)
    (hb : readField (Json.asList OwnerReference.ofJson) other = .ok b.ownerReferences) :
    ∃ after, FieldBecomes
        (a.ownerReferences.map fun list => .arr (list.map OwnerReference.toJson))
        (b.ownerReferences.map fun list => .arr (list.map OwnerReference.toJson))
        (fields.get? "ownerReferences") after ∧
      readField (Json.asList OwnerReference.ofJson) after = .ok b.ownerReferences := by
  unfold hasPlaces at hplaces
  rw [Bool.or_eq_true, decide_eq_true_eq] at hplaces
  rcases hplaces with heq | hstated
  · rw [← heq]
    refine ⟨_, Json.fieldBecomes_self (Json.proper_map fun list _ => .arr fun item hm => ?_) _, ha⟩
    obtain ⟨r, -, rfl⟩ := List.mem_map.1 hm
    exact r.proper_toJson
  · refine tracks_ownerReferences.becomesFieldEq (fun value hm => ⟨hs.field hm, ?_⟩) ha ho hb
    rintro items rfl
    rw [show (Json.obj fields).field? "ownerReferences" = some (.arr items) from hm] at hstated
    exact List.all_eq_true.1 hstated

/-- **The diff of what is written of metadata makes of the first ones, as they were given, what is read
as the second ones.** -/
theorem exists_becomes {start value : Json} {a b : ObjectMeta} (hs : start.Proper)
    (hplaces : hasPlaces start a b = true) (ha : ofJson start = .ok a) (hv : value.Proper)
    (hb : ofJson value = .ok b) :
    ∃ result c, Json.Becomes a.toJson b.toJson start result ∧ ofJson result = .ok c ∧ c.Same b := by
  obtain ⟨fields, rfl, hfa⟩ := read_eq_ok.1 ha
  obtain ⟨others, rfl, hfb⟩ := read_eq_ok.1 hb
  have hproper : ∀ key, ∀ value ∈ Fields.get? key others, value.Proper := fun key _ => hv.field
  have hentries : ∀ value ∈ Fields.get? "managedFields" fields, value.Proper ∧
      ∀ items, value = .arr items → ∀ i ∈ items, True :=
    fun value hm => ⟨hs.field hm, fun _ _ _ _ => trivial⟩
  obtain ⟨a1, a2, a3, a4, a5, a6, a7, a8, a9, a10, a11, a12, a13, a14, a15⟩ := hfa
  obtain ⟨b1, b2, b3, b4, b5, b6, b7, b8, b9, b10, b11, b12, b13, b14, b15⟩ := hfb
  simp only [nullable_eq_readField] at a1 a2 a3 a4 a5 a6 a7 a8 a9 a10 a11 a12 a13 a14 a15
  simp only [nullable_eq_readField] at b1 b2 b3 b4 b5 b6 b7 b8 b9 b10 b11 b12 b13 b14 b15
  have hreferences := becomes_ownerReferences hs hplaces a12 (hproper _) b12
  let time (t : Time.Instant) : Json := .str t.text
  let columns : List Column := [
    .reading "annotations" (Json.asDict Json.asText) .ofTexts a.annotations b.annotations,
    .reading "creationTimestamp" Json.asInstant time a.creationTimestamp b.creationTimestamp,
    .reading "deletionGracePeriodSeconds" Json.asInt64 .int a.deletionGracePeriodSeconds
      b.deletionGracePeriodSeconds,
    .reading "deletionTimestamp" Json.asInstant time a.deletionTimestamp b.deletionTimestamp,
    .reading "finalizers" (Json.asList Json.asText) .ofStrings a.finalizers b.finalizers,
    .reading "generateName" Json.asText .str a.generateName b.generateName,
    .reading "generation" Json.asInt64 .int a.generation b.generation,
    .reading "labels" (Json.asDict Json.asText) .ofTexts a.labels b.labels,
    ⟨"managedFields", a.managedFields.map fun list => .arr (list.map ManagedFields.toJson),
      b.managedFields.map fun list => .arr (list.map ManagedFields.toJson),
      fun after => ∃ c, readField (Json.asList ManagedFields.ofJson) after = .ok c ∧
        Option.Rel (List.Forall₂ ManagedFields.Same) c b.managedFields⟩,
    .reading "name" Json.asText .str a.name b.name,
    .reading "namespace" Json.asText .str a.namespaceName b.namespaceName,
    .reading "ownerReferences" (Json.asList OwnerReference.ofJson)
      (fun list => .arr (list.map OwnerReference.toJson)) a.ownerReferences b.ownerReferences,
    .reading "resourceVersion" Json.asText .str a.resourceVersion b.resourceVersion,
    .reading "selfLink" Json.asText .str a.selfLink b.selfLink,
    .reading "uid" Json.asText .str a.uid b.uid]
  have hkeys : (columns.map (·.key)).Pairwise (· < ·) := by
    simp only [columns, Json.Column.reading, List.map_cons, List.map_nil]
    decide
  have hcolumns : ∀ column ∈ columns, ∃ after, FieldBecomes column.old column.new
      (Fields.get? column.key fields) after ∧ column.good after := by
    simp only [columns, List.forall_mem_cons, List.not_mem_nil, IsEmpty.forall_iff, implies_true,
      and_true]
    exact ⟨tracks_texts.becomesFieldEq (hs.fieldReady _) a1 (hproper _) b1,
      tracks_instant.becomesFieldEq (hs.fieldReady _) a2 (hproper _) b2,
      tracks_int64.becomesFieldEq (hs.fieldReady _) a3 (hproper _) b3,
      tracks_instant.becomesFieldEq (hs.fieldReady _) a4 (hproper _) b4,
      tracks_strings.becomesFieldEq (hs.fieldReady _) a5 (hproper _) b5,
      tracks_text.becomesFieldEq (hs.fieldReady _) a6 (hproper _) b6,
      tracks_int64.becomesFieldEq (hs.fieldReady _) a7 (hproper _) b7,
      tracks_texts.becomesFieldEq (hs.fieldReady _) a8 (hproper _) b8,
      tracks_managedFields.becomesField hentries a9 (hproper _) b9,
      tracks_text.becomesFieldEq (hs.fieldReady _) a10 (hproper _) b10,
      tracks_text.becomesFieldEq (hs.fieldReady _) a11 (hproper _) b11,
      hreferences,
      tracks_text.becomesFieldEq (hs.fieldReady _) a13 (hproper _) b13,
      tracks_text.becomesFieldEq (hs.fieldReady _) a14 (hproper _) b14,
      tracks_text.becomesFieldEq (hs.fieldReady _) a15 (hproper _) b15⟩
  obtain ⟨result, hresult, -, hgood⟩ :=
    Json.becomes_record hkeys (Json.keeps_obj_iff.1 hs).1 hcolumns
  simp only [columns, List.forall_mem_cons, List.not_mem_nil, IsEmpty.forall_iff, implies_true,
    and_true] at hgood
  obtain ⟨h1, h2, h3, h4, h5, h6, h7, h8, ⟨managedFields, h9, hsame⟩, h10, h11, h12, h13, h14,
    h15⟩ := hgood
  refine ⟨.obj result, { b with managedFields := managedFields }, hresult, read_obj.2 ?_, hsame,
    rfl⟩
  constructor
  all_goals
    rw [nullable_eq_readField]
    assumption

end ObjectMeta

end Records

end Admission
