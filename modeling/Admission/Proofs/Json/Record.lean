import Admission.Proofs.Object
import Admission.Proofs.Text.Base64

/-!
# Records are read back

A record is written as an object whose fields are in order, so none of them is there twice and reading finds in
each the value that was written (`Json.asRecord_ofSome`).  What is read of a field is what was written into it if
the rule for leaving the field out goes with the default for its absence: a field that is always there with no
default or any, a text that is left out when empty with the empty text, an option with `null` for none.

The last pair does not go together for values that may be `null` themselves: the option that holds `null` is
written as `null` and read as none (`Fields.nullable_any`).
-/

namespace Admission

namespace Json

section ReadsBack

variable {α : Type} {item : Json → Decoded α} {write : α → Json} {a : α}

/-- **A thing is read back as it was written**, and is not written as `null`. -/
structure ReadsBack (item : Json → Decoded α) (write : α → Json) (a : α) : Prop where
  present : write a ≠ .null
  read : item (write a) = .ok a

theorem readsBack_text (text : String) : ReadsBack asText .str text := ⟨nofun, rfl⟩

theorem readsBack_bool (b : Bool) : ReadsBack asBool .bool b := ⟨nofun, rfl⟩

theorem readsBack_int32 {n : Int} (h : Width.fitsSigned 32 n) : ReadsBack asInt32 .int n :=
  ⟨nofun, if_pos h⟩

theorem readsBack_bytes (bytes : List UInt8) :
    ReadsBack asBytes (fun bytes => .str (Base64.encode bytes)) bytes where
  present := nofun
  read := by simp only [asBytes, asText, bind, Except.bind, Base64.decode?_encode]

theorem ReadsBack.list {as : List α} (h : ∀ a ∈ as, ReadsBack item write a) :
    ReadsBack (asList item) (fun as => .arr (as.map write)) as where
  present := nofun
  read := by
    refine mapM_eq_ok.2 ?_
    rw [List.forall₂_map_left_iff, List.forall₂_same]
    exact fun a ha => (h a ha).read

theorem readsBack_strings (texts : List String) : ReadsBack (asList asText) ofStrings texts :=
  .list fun text _ => readsBack_text text

theorem ReadsBack.dict {dict : Dict α} (h : ∀ pair ∈ dict.fields, ReadsBack item write pair.2) :
    ReadsBack (asDict item) (fun dict => ofDict (dict.map write)) dict where
  present := nofun
  read := by
    refine bind_eq_ok.2 ⟨_, rfl, bind_eq_ok.2 ⟨dict.fields, mapM_eq_ok.2 ?_, ?_⟩⟩
    · rw [show (dict.map write).fields = dict.fields.map fun pair => (pair.1, write pair.2) from rfl,
        List.forall₂_map_left_iff, List.forall₂_same]
      exact fun pair hm => bind_eq_ok.2 ⟨pair.2, (h pair hm).read, rfl⟩
    · exact congrArg Except.ok (Dict.ext dict.sorted.sort_eq)

theorem readsBack_texts (texts : Dict String) : ReadsBack (asDict asText) ofTexts texts :=
  .dict fun pair _ => readsBack_text pair.2

end ReadsBack

theorem length_filter_key_le {fields : Fields Json} (h : fields.Sorted) (name : String) :
    (fields.filter (·.1 = name)).length ≤ 1 := by
  have hsorted : (fields.filter (·.1 = name)).Pairwise fun a b => a.1 < b.1 := h.filter _
  have hname : ∀ pair ∈ fields.filter (·.1 = name), pair.1 = name :=
    fun pair hm => of_decide_eq_true (List.mem_filter.1 hm).2
  generalize fields.filter (·.1 = name) = filtered at hsorted hname
  match filtered, hsorted, hname with
  | [], _, _ => exact Nat.zero_le _
  | [_], _, _ => exact Nat.le_refl _
  | a :: b :: rest, hsorted, hname =>
    have hlt := List.rel_of_pairwise_cons hsorted List.mem_cons_self
    rw [hname a List.mem_cons_self, hname b (List.mem_cons_of_mem _ List.mem_cons_self)] at hlt
    exact absurd hlt (String.lt_irrefl name)

theorem asRecord_sorted {fields : Fields Json} (h : fields.Sorted) (names : List String) :
    (Json.obj fields).asRecord names = .ok fields := by
  have honce : names.find? (fun name => 1 < (fields.filter (·.1 = name)).length) = none :=
    List.find?_eq_none.2 fun name _ => by simpa using length_filter_key_le h name
  rw [asRecord, honce]

theorem fields_ofSome {value : Json} {columns : List (String × Option Json)} (hvalue : value = ofSome columns)
    (h : (columns.map (·.1)).Pairwise (· < ·)) :
    ∃ fields : Fields Json, value = .obj fields ∧ fields.Sorted ∧
      ∀ key, fields.get? key = (Fields.get? key columns).join := by
  subst hvalue
  exact ⟨_, rfl, sorted_ofSome h, field?_ofSome h⟩

/-- **A record that was written is read by name.** -/
theorem asRecord_ofSome {value : Json} {columns : List (String × Option Json)}
    (hvalue : value = ofSome columns) (h : (columns.map (·.1)).Pairwise (· < ·)) (names : List String) :
    ∃ fields : Fields Json, value.asRecord names = .ok fields ∧
      ∀ key, fields.get? key = (Fields.get? key columns).join := by
  obtain ⟨fields, rfl, hsorted, hget⟩ := fields_ofSome hvalue h
  exact ⟨fields, asRecord_sorted hsorted names, hget⟩

end Json

namespace Fields

open Json (ReadsBack)

variable {α : Type} {item : Json → Decoded α} {write : α → Json} {fields : Fields Json} {key : String}

theorem required_written {a : α} (h : fields.get? key = some (write a)) (ha : ReadsBack item write a) :
    fields.required key item = .ok a := by
  rw [required, h]
  exact ha.read

theorem defaulted_written {a default : α} (h : fields.get? key = some (write a))
    (ha : ReadsBack item write a) : fields.defaulted key default item = .ok a := by
  rw [defaulted, h]
  exact ha.read

theorem defaulted_nonempty {text : String} (h : fields.get? key = Json.nonempty text) :
    fields.defaulted key "" Json.asText = .ok text := by
  rw [defaulted, h, Json.nonempty]
  split
  · rename_i hempty
    split at hempty
    · cases hempty
    · cases hempty
      rfl
  · rename_i hempty
    split at hempty
    · rename_i heq
      rw [heq]
    · cases hempty

/-- An option that is left out when there is nothing is none by default, whatever is read of the thing in it. -/
theorem nullable_map {β : Type} {read : Json → Decoded β} {f : α → β} {a? : Option α}
    (h : fields.get? key = a?.map write)
    (ha : ∀ a ∈ a?, write a ≠ .null ∧ read (write a) = .ok (f a)) :
    fields.nullable key read = .ok (a?.map f) := by
  rw [nullable, h]
  cases a? with
  | none => rfl
  | some a =>
    obtain ⟨hpresent, hread⟩ := ha a rfl
    show (write a).orNull read = _
    unfold Json.orNull
    split
    · exact absurd ‹_› hpresent
    · rw [hread]
      rfl

theorem nullable_written {a? : Option α} (h : fields.get? key = a?.map write)
    (ha : ∀ a ∈ a?, ReadsBack item write a) : fields.nullable key item = .ok a? := by
  rw [nullable_map h fun a hm => ⟨(ha a hm).present, (ha a hm).read⟩, Option.map_id']

theorem lastNullable_eq (h : fields.Sorted) (key : String) (item : Json → Decoded α) :
    fields.lastNullable key item = fields.nullable key item := by
  rw [lastNullable]
  induction fields with
  | nil => rfl
  | cons pair rest ih =>
    obtain ⟨k, v⟩ := pair
    obtain ⟨hhead, hrest⟩ := List.pairwise_cons.1 h
    by_cases hk : k = key
    · subst hk
      have hnone : rest.filter (·.1 = k) = [] := List.filter_eq_nil_iff.2 fun pair hm heq =>
        String.lt_irrefl k (of_decide_eq_true heq ▸ hhead pair hm)
      simp [nullable, get?, hnone]
    · have hget : Fields.nullable key item ((k, v) :: rest) = Fields.nullable key item rest := by
        simp [nullable, get?, hk]
      rw [hget, ← ih hrest, List.filter_cons_of_neg (by simpa using hk)]

theorem lastNullable_written (hsorted : fields.Sorted) {a? : Option α} (h : fields.get? key = a?.map write)
    (ha : ∀ a ∈ a?, ReadsBack item write a) : fields.lastNullable key item = .ok a? := by
  rw [lastNullable_eq hsorted]
  exact nullable_written h ha

/-- **A value that is there and `null` is read as absent**, any other one as it is. -/
theorem nullable_any {value? : Option Json} (h : fields.get? key = value?) :
    fields.nullable key .ok = .ok (value?.filter (· ≠ .null)) := by
  rw [nullable, h]
  cases value? with
  | none => rfl
  | some value => cases value <;> rfl

end Fields

end Admission
