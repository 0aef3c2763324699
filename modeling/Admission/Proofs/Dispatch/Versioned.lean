import Admission.Dispatch.Versioned
import Admission.Proofs.Results

/-!
# Objects in one kind after another

Converting the objects of a request is re-expressing each of them (`convertTo_eq`): an object that is
held in the kind asked for stays as it is, and of any other the converter is asked for its form.  When
conversions compose, the kinds on the way do not matter.
-/

namespace Admission

/-- Conversions compose: by way of another kind an object comes to the same. -/
def Converter.Composes (convert : Converter) : Prop :=
  ∀ object via between kind, convert object via = .ok between →
    convert between kind = convert object kind

theorem Converter.eq_withKind_of_relabel {object result : Object} {kind : GroupVersionKind}
    (h : relabel object kind = .ok result) : result = object.withKind kind := by
  unfold relabel at h
  split at h <;> cases h
  rfl

theorem Converter.relabel_composes : relabel.Composes := by
  intro object via between kind h
  rw [eq_withKind_of_relabel h]
  rfl

namespace Versioned

/-- An object held in one kind, in another; in the kind it is held in it stays as it is. -/
def reexpress (convert : Converter) (held kind : GroupVersionKind) (object : Option Object) :
    Except StatusError (Option Object) :=
  if held = kind then .ok object else convertObject convert kind object

theorem convertTo_eq (convert : Converter) (kind : GroupVersionKind) (v : Versioned) :
    v.convertTo convert kind = do
      let object ← reexpress convert v.kind kind v.object
      let oldObject ← reexpress convert v.kind kind v.oldObject
      return { v with kind := kind, object := object, oldObject := oldObject } := by
  by_cases h : v.kind = kind
  · subst h
    simp only [convertTo, reexpress, if_true]
    rfl
  · simp only [convertTo, reexpress, h, if_false]

section Reexpress

variable {convert : Converter} {held kind : GroupVersionKind}

/-- **What an object is re-expressed as**: itself, if it is held in the kind asked for, and else what
the converter makes of it. -/
theorem reexpress_cases {object result : Option Object}
    (h : reexpress convert held kind object = .ok result) :
    (held = kind ∧ result = object) ∨ (object = none ∧ result = none) ∨
      ∃ before after, object = some before ∧ convert before kind = .ok after ∧
        result = some after := by
  unfold reexpress at h
  split at h
  · rename_i hk
    cases h
    exact .inl ⟨hk, rfl⟩
  · unfold convertObject at h
    split at h
    · cases h
      exact .inr (.inl ⟨rfl, rfl⟩)
    · rename_i before
      split at h <;> cases h
      exact .inr (.inr ⟨before, _, rfl, ‹_›, rfl⟩)

theorem isSome_of_reexpress {object result : Option Object}
    (h : reexpress convert held kind object = .ok result) : result.isSome = object.isSome := by
  obtain ⟨-, rfl⟩ | ⟨rfl, rfl⟩ | ⟨_, _, rfl, -, rfl⟩ := reexpress_cases h <;> rfl

theorem code_of_reexpress_error {object : Option Object} {e : StatusError}
    (h : reexpress convert held kind object = .error e) : e.code = 500 := by
  unfold reexpress at h
  split at h
  · cases h
  · unfold convertObject at h
    split at h
    · cases h
    · split at h <;> cases h
      rfl

theorem code_of_convertTo_error {v : Versioned} {e : StatusError}
    (h : v.convertTo convert kind = .error e) : e.code = 500 := by
  rw [convertTo_eq] at h
  rcases bind_eq_error.1 h with h | ⟨object, -, h⟩
  · exact code_of_reexpress_error h
  · rcases bind_eq_error.1 h with h | ⟨oldObject, -, h⟩
    · exact code_of_reexpress_error h
    · cases h

/-- **The way does not matter**: what is converted from a form of an object is converted from the
object itself. -/
theorem reexpress_of_composes (hc : convert.Composes) {origin object : Object}
    {result : Option Object} (ho : convert origin held = .ok object)
    (h : reexpress convert held kind (some object) = .ok result) :
    ∃ object', result = some object' ∧ convert origin kind = .ok object' := by
  obtain ⟨rfl, rfl⟩ | ⟨hnone, -⟩ | ⟨_, object', hsome, hconvert, rfl⟩ := reexpress_cases h
  · exact ⟨object, rfl, ho⟩
  · cases hnone
  · cases hsome
    exact ⟨object', rfl, (hc _ _ _ _ ho).symm.trans hconvert⟩

end Reexpress

/-! ## restating the kind -/

section WithKind

variable {kind : GroupVersionKind}

/-- The objects with another statement of their kind, held in that kind. -/
def withKind (v : Versioned) (kind : GroupVersionKind) : Versioned :=
  ⟨kind, v.object.map (·.withKind kind), v.oldObject.map (·.withKind kind), v.dirty⟩

/-- Whether the objects say they are of the kind they are held in. -/
def Stated (v : Versioned) : Prop := v.withKind v.kind = v

theorem stated_iff {v : Versioned} : v.Stated ↔
    (∀ o ∈ v.object, o.types = some v.kind.typeMeta) ∧
      ∀ o ∈ v.oldObject, o.types = some v.kind.typeMeta := by
  have hone : ∀ object : Option Object, object.map (·.withKind v.kind) = object ↔
      ∀ o ∈ object, o.types = some v.kind.typeMeta := by
    intro object
    cases object with
    | none => simp
    | some o =>
      obtain ⟨types, metadata, data⟩ := o
      simp [Object.withKind, eq_comm]
  obtain ⟨kind, object, oldObject, dirty⟩ := v
  rw [← hone, ← hone, Stated, withKind, Versioned.mk.injEq]
  simp

@[simp] theorem withKind_withKind (v : Versioned) (via kind : GroupVersionKind) :
    (v.withKind via).withKind kind = v.withKind kind := by
  unfold withKind
  simp only [Option.map_map]
  rfl

theorem stated_withKind (v : Versioned) (kind : GroupVersionKind) : (v.withKind kind).Stated :=
  withKind_withKind v kind kind

theorem convertObject_relabel (hk : kind.isComplete = true) (object : Option Object) :
    convertObject .relabel kind object = .ok (object.map (·.withKind kind)) := by
  cases object with
  | none => rfl
  | some object => simp [convertObject, Converter.relabel, hk]

theorem convertTo_relabel (v : Versioned) (hk : kind.isComplete = true) :
    ∃ objects, v.convertTo .relabel kind = .ok objects ∧ objects.dirty = v.dirty := by
  unfold Versioned.convertTo
  split
  · exact ⟨v, rfl, rfl⟩
  · rw [convertObject_relabel hk, convertObject_relabel hk]
    exact ⟨_, rfl, rfl⟩

/-- **Objects that state the kind they are held in** state the kind they are converted to. -/
theorem Stated.convertTo {v : Versioned} (hv : v.Stated) (hk : kind.isComplete = true) :
    v.convertTo .relabel kind = .ok (v.withKind kind) := by
  unfold Versioned.convertTo
  split
  · rename_i h
    rw [← h, hv]
  · rw [convertObject_relabel hk, convertObject_relabel hk]
    rfl

end WithKind

end Versioned

end Admission
