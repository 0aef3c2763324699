import Admission.Json.Patch
import Admission.Proofs.Json.Proper
import Admission.Proofs.Results

/-!
# What a patch does to a document

* A patch whose values are proper makes proper documents of proper ones (`Proper.patch`), and the
  patches that are read from text are such patches (`Patch.proper_of_ofText`).
* An operation that goes into an object touches one field of it: what becomes of the field depends on
  the field alone (`addAt_obj`, `removeAt_obj`, `replaceAt_obj`).
-/

namespace Admission

namespace Json

/-! ## 1. proper documents -/

theorem Proper.update {fields : List (String × Json)} (h : (obj fields).Proper) (key : String)
    (value : Option Json) (hv : ∀ v, value = some v → v.Proper) :
    (obj (Fields.update key value fields)).Proper := by
  obtain ⟨hsorted, hpairs⟩ := keeps_obj_iff.1 h
  refine .obj (hsorted.update key value) fun pair hm => ?_
  rcases Fields.mem_update hm with hvalue | hm
  · exact hv _ hvalue
  · exact hpairs pair hm

theorem Proper.insert {fields : List (String × Json)} (h : (obj fields).Proper) (key : String)
    {value : Json} (hv : value.Proper) : (obj (Fields.insert key value fields)).Proper :=
  h.update key (some value) fun v hs => by cases hs; exact hv

theorem Proper.at? {path : Pointer} {document value : Json} (h : document.Proper)
    (hat : document.at? path = some value) : value.Proper := by
  induction path generalizing document with
  | nil => cases hat; exact h
  | cons step rest ih =>
    cases document with
    | obj fields =>
      obtain ⟨inner, hinner, hat⟩ := Option.bind_eq_some_iff.1 hat
      exact ih (h.field hinner) hat
    | arr items =>
      obtain ⟨i, -, hat⟩ := Option.bind_eq_some_iff.1 hat
      obtain ⟨inner, hinner, hat⟩ := Option.bind_eq_some_iff.1 hat
      exact ih (keeps_arr_iff.1 h inner (List.mem_of_getElem? hinner)) hat
    | _ => cases hat

/-- What a change of one value in a document keeps, if the change itself does. -/
theorem Proper.modifyAt {ε : Type} {absent : ε} {change : Json → Except ε Json}
    (hchange : ∀ a b : Json, a.Proper → change a = .ok b → b.Proper) {path : Pointer}
    {document result : Json} (h : document.Proper)
    (hm : Json.modifyAt absent change path document = .ok result) : result.Proper := by
  induction path generalizing document result with
  | nil => exact hchange document result h hm
  | cons step rest ih =>
    cases document with
    | obj fields =>
      rw [Json.modifyAt] at hm
      split at hm
      · rename_i inner hinner
        obtain ⟨changed, hc, hm⟩ := bind_eq_ok.1 hm
        cases hm
        exact h.insert step (ih (h.field hinner) hc)
      · cases hm
    | arr items =>
      rw [Json.modifyAt] at hm
      split at hm
      · cases hm
      · split at hm
        · rename_i i _ inner hinner
          obtain ⟨changed, hc, hm⟩ := bind_eq_ok.1 hm
          cases hm
          have hitems := keeps_arr_iff.1 h
          have hchanged := ih (hitems inner (List.mem_of_getElem? hinner)) hc
          refine .arr fun item hi => ?_
          rcases List.mem_or_eq_of_mem_set hi with hi | rfl
          · exact hitems item hi
          · exact hchanged
        · cases hm
    | _ => cases hm

end Json

namespace PatchOperation

open Json (Proper keeps_arr_iff)

/-- The value an operation brings with it. -/
def operand? : PatchOperation → Option Json
  | .add _ value => some value
  | .replace _ value => some value
  | .test _ value => some value
  | _ => none

theorem proper_of_put {step : String} {value document result : Json} (hv : value.Proper)
    (hd : document.Proper) (h : put step value document = .ok result) : result.Proper := by
  cases document with
  | obj fields =>
    cases h
    exact hd.insert step hv
  | arr items =>
    have hitems := keeps_arr_iff.1 hd
    rw [put] at h
    split at h
    · cases h
      refine .arr fun item hi => ?_
      rcases List.mem_append.1 hi with hi | hi
      · exact hitems item hi
      · rw [List.mem_singleton.1 hi]; exact hv
    · split at h
      · rename_i i _
        cases h
        refine .arr fun item hi => ?_
        rcases List.mem_append.1 hi with hi | hi
        · exact hitems item (List.mem_of_mem_take hi)
        · rcases List.mem_cons.1 hi with rfl | hi
          · exact hv
          · exact hitems item (List.mem_of_mem_drop hi)
      · cases h
  | _ => cases h

theorem proper_of_drop {step : String} {document result : Json} (hd : document.Proper)
    (h : drop step document = .ok result) : result.Proper := by
  cases document with
  | obj fields =>
    rw [drop] at h
    split at h
    · cases h
      exact hd.update step none fun v hs => by cases hs
    · cases h
  | arr items =>
    rw [drop] at h
    split at h
    · cases h
      exact .arr fun item hi => keeps_arr_iff.1 hd item (List.mem_of_mem_eraseIdx hi)
    · cases h
  | _ => cases h

theorem proper_of_addAt {path : Pointer} {value document result : Json} (hv : value.Proper)
    (hd : document.Proper) (h : addAt path value document = .ok result) : result.Proper := by
  unfold addAt at h
  split at h
  · cases h; exact hv
  · exact Proper.modifyAt (fun a b ha hb => proper_of_put hv ha hb) hd h

theorem proper_of_removeAt {path : Pointer} {document result : Json} (hd : document.Proper)
    (h : removeAt path document = .ok result) : result.Proper := by
  unfold removeAt at h
  split at h
  · cases h; exact .null
  · exact Proper.modifyAt (fun a b ha hb => proper_of_drop ha hb) hd h

theorem proper_of_apply {operation : PatchOperation} {document result : Json}
    (ho : ∀ value, operation.operand? = some value → value.Proper) (hd : document.Proper)
    (h : operation.apply document = .ok result) : result.Proper := by
  cases operation with
  | add path value => exact proper_of_addAt (ho value rfl) hd h
  | remove path => exact proper_of_removeAt hd h
  | replace path value =>
    exact Proper.modifyAt (fun a b _ hb => by cases hb; exact ho value rfl) hd h
  | move source path =>
    unfold apply at h
    dsimp only at h
    split at h
    · cases h
    · split at h
      · rename_i value rest hvalue hrest
        exact proper_of_addAt (hd.at? hvalue) (proper_of_removeAt hd hrest) h
      · cases h
  | copy source path =>
    unfold apply at h
    dsimp only at h
    split at h
    · rename_i value hvalue
      exact proper_of_addAt (hd.at? hvalue) hd h
    · cases h
  | test path value =>
    unfold apply at h
    dsimp only at h
    split at h
    · split at h
      · cases h; exact hd
      · cases h
    · cases h

end PatchOperation

namespace Patch

open Json (Proper)

/-- Every value that a patch brings with it is proper. -/
def Proper (patch : Patch) : Prop :=
  ∀ operation ∈ patch, ∀ value, operation.operand? = some value → value.Proper

theorem applyFrom_keeps {position : Nat} {patch : Patch} {document result : Json}
    (hp : patch.Proper) (hd : document.Proper)
    (h : applyFrom position patch document = .ok result) : result.Proper := by
  induction patch generalizing position document with
  | nil => cases h; exact hd
  | cons operation rest ih =>
    obtain ⟨hhead, hrest⟩ := List.forall_mem_cons.1 hp
    rw [applyFrom] at h
    split at h
    · rename_i next hnext
      exact ih hrest (PatchOperation.proper_of_apply hhead hd hnext) h
    · cases h

end Patch

namespace Patch

/-! ## 2. patches that are read -/

theorem fields_of_asRecord {names : List String} {fields result : Fields Json}
    (h : Json.asRecord names (.obj fields) = .ok result) : result = fields := by
  unfold Json.asRecord at h
  dsimp only at h
  split at h <;> cases h
  rfl

section Read

variable {value rest : Json} {operation : PatchOperation}

theorem numeric_of_asRecord {names : List String} {fields : Fields Json} (hv : value.Numeric)
    (h : value.asRecord names = .ok fields) : ∀ pair ∈ fields, pair.2.Numeric := by
  cases value with
  | obj given =>
    rw [fields_of_asRecord h]
    exact (Json.keeps_obj_iff.1 hv).2
  | arr items =>
    unfold Json.asRecord at h
    dsimp only at h
    split at h
    · cases h
      exact fun pair hm => Json.keeps_arr_iff.1 hv _ (List.of_mem_zip hm).2
    · cases h
  | _ => cases h

theorem numeric_of_named {name : String} (hv : value.Numeric)
    (h : PatchOperation.named value = .ok (name, rest)) : rest.Numeric := by
  unfold PatchOperation.named at h
  split at h
  · rename_i fields
    split at h
    · cases h
    · obtain ⟨_, -, h⟩ := bind_eq_ok.1 h
      cases h
      obtain ⟨-, hpairs⟩ := Json.keeps_obj_iff.1 hv
      exact .obj trivial fun pair hm => hpairs pair (List.mem_of_mem_filter hm)
    · cases h
  · cases h
  · obtain ⟨_, -, h⟩ := bind_eq_ok.1 h
    cases h
    exact .arr fun item hm => Json.keeps_arr_iff.1 hv item (List.mem_cons_of_mem _ hm)
  · cases h

theorem proper_of_withValue {make : Pointer → Json → PatchOperation}
    (hmake : ∀ path operand, (make path operand).operand? = some operand) (hr : rest.Numeric)
    (h : PatchOperation.withValue make rest = .ok operation) :
    ∀ operand, operation.operand? = some operand → operand.Proper := by
  obtain ⟨fields, hfields, h⟩ := bind_eq_ok.1 h
  obtain ⟨path, -, h⟩ := bind_eq_ok.1 h
  obtain ⟨operand, hoperand, h⟩ := bind_eq_ok.1 h
  cases h
  unfold Fields.required at hoperand
  split at hoperand
  · rename_i found hfound
    cases hoperand
    intro canonical hcanonical
    rw [hmake, Option.some.injEq] at hcanonical
    rw [← hcanonical]
    exact (numeric_of_asRecord hr hfields _ (Fields.mem_of_get? hfound)).proper_canonical
  · cases hoperand

theorem operand?_of_withSource {make : Pointer → Pointer → PatchOperation}
    (hmake : ∀ source path, (make source path).operand? = none)
    (h : PatchOperation.withSource make rest = .ok operation) : operation.operand? = none := by
  obtain ⟨fields, -, h⟩ := bind_eq_ok.1 h
  obtain ⟨source, -, h⟩ := bind_eq_ok.1 h
  obtain ⟨path, -, h⟩ := bind_eq_ok.1 h
  cases h
  exact hmake source path

theorem operand?_of_withPath {make : Pointer → PatchOperation} (hmake : ∀ path, (make path).operand? = none)
    (h : PatchOperation.withPath make rest = .ok operation) : operation.operand? = none := by
  obtain ⟨fields, -, h⟩ := bind_eq_ok.1 h
  obtain ⟨path, -, h⟩ := bind_eq_ok.1 h
  cases h
  exact hmake path

theorem operand_of_ofJson (hv : value.Numeric) (h : PatchOperation.ofJson value = .ok operation) :
    ∀ operand, operation.operand? = some operand → operand.Proper := by
  obtain ⟨⟨name, rest⟩, hnamed, h⟩ := bind_eq_ok.1 h
  have hrest := numeric_of_named hv hnamed
  have hnone : operation.operand? = none → ∀ operand, operation.operand? = some operand → operand.Proper := by
    intro hnone operand hoperand
    rw [hnone] at hoperand
    cases hoperand
  dsimp only at h
  split at h
  · exact proper_of_withValue (fun _ _ => rfl) hrest h
  · exact hnone (operand?_of_withPath (fun _ => rfl) h)
  · exact proper_of_withValue (fun _ _ => rfl) hrest h
  · exact hnone (operand?_of_withSource (fun _ _ => rfl) h)
  · exact hnone (operand?_of_withSource (fun _ _ => rfl) h)
  · exact proper_of_withValue (fun _ _ => rfl) hrest h
  · cases h

end Read

theorem proper_of_ofText {text : String} {patch : Patch} (h : ofText text = .ok patch) :
    patch.Proper := by
  unfold ofText at h
  split at h
  · rename_i value hvalue
    have hnumeric := Json.numeric_of_readRaw? hvalue
    cases value with
    | arr items =>
      intro operation hm
      obtain ⟨item, hi, hitem⟩ := exists_of_mapM_eq_ok h hm
      exact operand_of_ofJson (Json.keeps_arr_iff.1 hnumeric item hi) hitem
    | _ => cases h
  · cases h

end Patch

/-- **A patch makes proper documents of proper ones**, if the values it brings are proper. -/
theorem Json.Proper.patch {patch : Patch} {document result : Json} (hp : patch.Proper)
    (hd : document.Proper) (h : patch.apply document = .ok result) : result.Proper :=
  Patch.applyFrom_keeps hp hd h

/-! ## 3. operations that go into an object -/

namespace PatchOperation

/-- What becomes of the value at a place, none standing for no value. -/
abbrev Edit := Option Json → Except PatchFault (Option Json)

/-- An edit of what is under a key of an object. -/
def editField (edit : Edit) (key : String) (fields : List (String × Json)) :
    Except PatchFault Json := do
  let value ← edit (Fields.get? key fields)
  return .obj (Fields.update key value fields)

/-- A change of a value that has to be there. -/
def inside (change : Json → Except PatchFault Json) : Edit
  | some inner => some <$> change inner
  | none => .error .invalidPath

theorem inside_eq_ok {change : Json → Except PatchFault Json} {a : Json} {value : Option Json} :
    inside change (some a) = .ok value ↔ ∃ b, change a = .ok b ∧ value = some b := by
  show some <$> change a = .ok value ↔ _
  cases change a with
  | error e => simp
  | ok b => simp [eq_comm]

/-- Adding below a place, or at the place itself. -/
def addIn (rest : Pointer) (value : Json) : Edit :=
  if rest = [] then fun _ => .ok (some value) else inside (addAt rest value)

/-- Removing below a place, or what is at the place itself. -/
def removeIn (rest : Pointer) : Edit :=
  if rest = [] then fun here => if here.isSome then .ok none else .error .invalidPath
  else inside (removeAt rest)

/-- Replacing below a place, or what is at the place itself. -/
def replaceIn (rest : Pointer) (value : Json) : Edit :=
  inside (Json.modifyAt .invalidPath (fun _ => .ok value) rest)

section Obj

variable (key : String) (rest : Pointer) (value : Json) (fields : List (String × Json))

theorem modifyAt_obj (change : Json → Except PatchFault Json) :
    (Json.obj fields).modifyAt .invalidPath change (key :: rest) =
      editField (inside (Json.modifyAt .invalidPath change rest)) key fields := by
  rw [Json.modifyAt, editField, inside.eq_def]
  cases Fields.get? key fields with
  | none => rfl
  | some inner =>
    dsimp only
    cases Json.modifyAt .invalidPath change rest inner <;> rfl

theorem addAt_obj : addAt (key :: rest) value (.obj fields) =
    editField (addIn rest value) key fields := by
  cases rest with
  | nil => rfl
  | cons step more =>
    unfold addAt
    rw [List.getLast?_cons_cons, List.dropLast_cons_cons, addIn, if_neg (List.cons_ne_nil _ _)]
    unfold addAt
    split
    · rename_i hnone
      exact absurd hnone (by simp)
    · exact modifyAt_obj ..

theorem removeAt_obj : removeAt (key :: rest) (.obj fields) =
    editField (removeIn rest) key fields := by
  cases rest with
  | nil =>
    show drop key (.obj fields) = _
    rw [drop, editField, removeIn, if_pos rfl]
    split <;> rfl
  | cons step more =>
    unfold removeAt
    rw [List.getLast?_cons_cons, List.dropLast_cons_cons, removeIn, if_neg (List.cons_ne_nil _ _)]
    unfold removeAt
    split
    · rename_i hnone
      exact absurd hnone (by simp)
    · exact modifyAt_obj ..

theorem replaceAt_obj : (replace (key :: rest) value).apply (.obj fields) =
    editField (replaceIn rest value) key fields :=
  modifyAt_obj ..

end Obj

/-- **A way of changing a document at a path**, together with what it makes of the value at a place:
going into an object it changes one field, and what was at its very place does not matter to it. -/
structure Editing (run : Pointer → Json → Except PatchFault Json) (place : Pointer → Edit) :
    Prop where
  nil : ∀ a b, run [] a = run [] b
  obj : ∀ key rest fields, run (key :: rest) (.obj fields) = editField (place rest) key fields
  here : ∀ a b, place [] (some a) = place [] (some b)
  below : ∀ {rest}, rest ≠ [] → place rest = inside (run rest)
  /-- What can be done where nothing is replaces what is there. -/
  absent : ∀ {rest value}, place rest none = .ok value →
    rest = [] ∧ ∀ a, place rest (some a) = .ok value

theorem editing_add (value : Json) :
    Editing (fun path => addAt path value) (fun rest => addIn rest value) where
  nil _ _ := rfl
  obj key rest fields := addAt_obj key rest value fields
  here _ _ := rfl
  below hne := if_neg hne
  absent := by
    intro rest value' h
    unfold addIn at h ⊢
    split at h
    · rename_i hrest
      exact ⟨hrest, fun _ => by rw [if_pos hrest]; exact h⟩
    · cases h

theorem editing_remove : Editing removeAt removeIn where
  nil _ _ := rfl
  obj key rest fields := removeAt_obj key rest fields
  here _ _ := rfl
  below hne := if_neg hne
  absent := by
    intro rest value h
    unfold removeIn at h
    split at h <;> cases h

theorem editing_replace (value : Json) :
    Editing (fun path document => (replace path value).apply document)
      (fun rest => replaceIn rest value) where
  nil _ _ := rfl
  obj key rest fields := replaceAt_obj key rest value fields
  here _ _ := rfl
  below _ := rfl
  absent h := by cases h

end PatchOperation

end Admission
