import Admission.Proofs.Json.Diff
import Admission.Proofs.Object

/-!
# Objects read from values that are the same

Values that are the same differ in nothing but doubles that are equal as numbers.  Doubles are kept as
they are read, and everything else that is read is read alike (`Json.Follows`, reader by reader).  So
objects count as the same if they differ in such doubles only (`Object.Same`).
-/

namespace Admission

namespace Json

/-! ## 1. readers -/

section Leaves

variable {a : Json}

theorem eq_bool_of_same {value : Bool} (h : a.same (.bool value) = true) : a = .bool value := by
  cases a with
  | bool b => simpa [same, agree] using h
  | _ => cases h

theorem eq_int_of_same {value : Int} (h : a.same (.int value) = true) : a = .int value := by
  cases a with
  | int n => simpa [same, agree] using h
  | _ => cases h

theorem eq_str_of_same {text : String} (h : a.same (.str text) = true) : a = .str text := by
  cases a with
  | str t => simpa [same, agree] using h
  | _ => cases h

theorem exists_arr_of_same {items : List Json} (h : a.same (.arr items) = true) :
    ∃ others, a = .arr others ∧ agreeItems sameNumber others items = true := by
  cases a with
  | arr others => exact ⟨others, rfl, h⟩
  | _ => cases h

theorem exists_obj_of_same {fields : List (String × Json)} (h : a.same (.obj fields) = true) :
    ∃ others, a = .obj others ∧ agreeFields sameNumber others fields = true := by
  cases a with
  | obj others => exact ⟨others, rfl, h⟩
  | _ => cases h

end Leaves

/-- What is read of a value is read, up to a relation, of every value that is the same. -/
def Follows {α : Type} (rel : α → α → Prop) (item : Json → Decoded α) : Prop :=
  ∀ ⦃a b : Json⦄ ⦃x : α⦄, a.same b = true → item b = .ok x → ∃ y, item a = .ok y ∧ rel y x

theorem follows_asText : Follows Eq asText := by
  intro a b x h hb
  cases b with
  | str text => exact ⟨x, by rw [eq_str_of_same h, hb], rfl⟩
  | _ => cases hb

theorem follows_asBool : Follows Eq asBool := by
  intro a b x h hb
  cases b with
  | bool value => exact ⟨x, by rw [eq_bool_of_same h, hb], rfl⟩
  | _ => cases hb

theorem follows_asInt64 : Follows Eq asInt64 := by
  intro a b x h hb
  cases b with
  | int value => exact ⟨x, by rw [eq_int_of_same h, hb], rfl⟩
  | _ => cases hb

theorem Follows.asList {α : Type} {rel : α → α → Prop} {item : Json → Decoded α}
    (hi : Follows rel item) : Follows (List.Forall₂ rel) (asList item) := by
  intro a b xs h hb
  cases b with
  | arr items =>
    obtain ⟨others, rfl, hagree⟩ := exists_arr_of_same h
    have hitems := mapM_eq_ok.1 (show items.mapM item = .ok xs from hb)
    suffices hmap : ∃ ys, others.mapM item = .ok ys ∧ List.Forall₂ rel ys xs from hmap
    clear h hb
    induction hitems generalizing others with
    | nil =>
      cases others with
      | nil => exact ⟨[], rfl, .nil⟩
      | cons _ _ => cases hagree
    | cons hx _ ih =>
      cases others with
      | nil => cases hagree
      | cons other rest =>
        rw [agreeItems, Bool.and_eq_true] at hagree
        obtain ⟨y, hy, hrel⟩ := hi hagree.1 hx
        obtain ⟨ys, hys, hrels⟩ := ih rest hagree.2
        exact ⟨y :: ys, mapM_eq_ok.2 (.cons hy (mapM_eq_ok.1 hys)), .cons hrel hrels⟩
  | _ => cases hb

theorem Follows.asListEq {α : Type} {item : Json → Decoded α} (hi : Follows Eq item) :
    Follows Eq (Json.asList item) := by
  intro a b xs h hb
  obtain ⟨ys, hys, hrel⟩ := hi.asList h hb
  rw [List.forall₂_eq_eq_eq] at hrel
  exact ⟨ys, hys, hrel⟩

theorem follows_asDict : Follows Eq (asDict asText) := by
  intro a b x h hb
  obtain ⟨fields, hfields, hread⟩ := bind_eq_ok.1 hb
  obtain ⟨pairs, hpairs, -⟩ := bind_eq_ok.1 hread
  cases b with
  | obj fields' =>
    cases hfields
    obtain ⟨others, rfl, hagree⟩ := exists_obj_of_same h
    suffices hsame : others = fields by
      rw [hsame]
      exact ⟨x, hb, rfl⟩
    have hitems := mapM_eq_ok.1 hpairs
    clear h hb hread hpairs
    induction hitems generalizing others with
    | nil =>
      cases others with
      | nil => rfl
      | cons _ _ => cases hagree
    | @cons pair _ _ _ hx _ ih =>
      obtain ⟨key, value⟩ := pair
      cases others with
      | nil => cases hagree
      | cons other rest =>
        obtain ⟨k, v⟩ := other
        rw [agreeFields, Bool.and_eq_true, Bool.and_eq_true, beq_iff_eq] at hagree
        obtain ⟨⟨rfl, hv⟩, hrest⟩ := hagree
        obtain ⟨text, htext, -⟩ := bind_eq_ok.1 hx
        have hvalue : v = value := by
          cases value with
          | str t => exact eq_str_of_same hv
          | _ => cases htext
        rw [hvalue, ih rest hrest]
  | _ => cases hfields

theorem follows_ok : Follows (fun a b => a.same b = true) Except.ok := by
  intro a b x h hb
  cases hb
  exact ⟨a, rfl, h⟩

end Json

/-! ## 2. objects -/

/-- Entries that differ at most in fields that are the same. -/
def ManagedFields.Same (a b : ManagedFields) : Prop :=
  Option.Rel (fun x y => x.same y = true) a.fieldsV1 b.fieldsV1 ∧ a = { b with fieldsV1 := a.fieldsV1 }

/-- Metadata that differ at most in managed fields that are the same. -/
def ObjectMeta.Same (a b : ObjectMeta) : Prop :=
  Option.Rel (List.Forall₂ ManagedFields.Same) a.managedFields b.managedFields ∧
    a = { b with managedFields := a.managedFields }

/-- **Objects that are the same**: of one kind, with metadata and fields that are the same. -/
structure Object.Same (a b : Object) : Prop where
  types : a.types = b.types
  metadata : a.metadata.Same b.metadata
  data : (Json.ofDict a.data).same (Json.ofDict b.data) = true

end Admission
