import Admission.Json.Reader
import Admission.Proofs.Dict
import Admission.Proofs.Json.Number

/-!
# Values as they are read

The values that `Json.read?` gives are *proper*: the keys of every object are in ascending order, each
once, and every double is a number (`proper_of_read?`).  Of such values much is true that fails for
others: each is the same as itself (`Proper.same_refl`), and an object is known by what is under its
keys.
-/

namespace Admission.Json

/-! ## 1. proper values -/

/-- The pairs of every object in a value keep to a rule, and every double in it is a number. -/
inductive Keeps (rule : List (String × Json) → Prop) : Json → Prop
  | null : Keeps rule .null
  | bool (value : Bool) : Keeps rule (.bool value)
  | int (value : Int) : Keeps rule (.int value)
  | double {bits : UInt64} (h : IsNumber (Float.ofBits bits)) : Keeps rule (.double bits)
  | str (text : String) : Keeps rule (.str text)
  | arr {items : List Json} (h : ∀ item ∈ items, Keeps rule item) : Keeps rule (.arr items)
  | obj {fields : List (String × Json)} (keys : rule fields)
      (h : ∀ pair ∈ fields, Keeps rule pair.2) : Keeps rule (.obj fields)

/-- Every double is a number. -/
abbrev Numeric : Json → Prop := Keeps fun _ => True

/-- **Every double is a number, and the keys of every object are ascending.** -/
abbrev Proper : Json → Prop := Keeps Fields.Sorted

section Rule

variable {rule : List (String × Json) → Prop}

@[simp] theorem keeps_null : Keeps rule .null := .null

@[simp] theorem keeps_bool (value : Bool) : Keeps rule (.bool value) := .bool value

@[simp] theorem keeps_int (value : Int) : Keeps rule (.int value) := .int value

@[simp] theorem keeps_str (text : String) : Keeps rule (.str text) := .str text

@[simp] theorem keeps_arr_iff {items : List Json} :
    Keeps rule (.arr items) ↔ ∀ item ∈ items, Keeps rule item :=
  ⟨fun h => by cases h; assumption, .arr⟩

@[simp] theorem keeps_obj_iff {fields : List (String × Json)} :
    Keeps rule (.obj fields) ↔ rule fields ∧ ∀ pair ∈ fields, Keeps rule pair.2 :=
  ⟨fun h => by cases h; exact ⟨‹_›, ‹_›⟩, fun h => .obj h.1 h.2⟩

end Rule

theorem Proper.field {fields : List (String × Json)} (h : (obj fields).Proper) {key : String}
    {value : Json} (hget : Fields.get? key fields = some value) : value.Proper :=
  (keeps_obj_iff.1 h).2 _ (Fields.mem_of_get? hget)

theorem Proper.field? {document : Json} (h : document.Proper) {key : String} {value : Json}
    (hget : document.field? key = some value) : value.Proper := by
  cases document with
  | obj fields => exact h.field hget
  | _ => cases hget

mutual

theorem Proper.same_refl : ∀ {a : Json}, a.Proper → a.same a = true
  | .null, _ => rfl
  | .bool b, _ => by simp [same, agree]
  | .int n, _ => by simp [same, agree]
  | .double bits, .double h => by
    rw [same, agree]
    exact (beq_self_iff _).2 h
  | .str text, _ => by simp [same, agree]
  | .arr items, .arr h => by
    rw [same, agree]
    exact Proper.sameItems_refl h
  | .obj fields, .obj _ h => by
    rw [same, agree]
    exact Proper.sameFields_refl h

theorem Proper.sameItems_refl : ∀ {items : List Json}, (∀ item ∈ items, item.Proper) →
    agreeItems (fun x y => Float.ofBits x == Float.ofBits y) items items = true
  | [], _ => rfl
  | item :: rest, h => by
    have hitem : item.same item = true := Proper.same_refl (h item List.mem_cons_self)
    have hrest := Proper.sameItems_refl fun item hm => h item (List.mem_cons_of_mem _ hm)
    rw [same] at hitem
    rw [agreeItems, hitem, hrest]
    rfl

theorem Proper.sameFields_refl : ∀ {fields : List (String × Json)},
    (∀ pair ∈ fields, pair.2.Proper) →
      agreeFields (fun x y => Float.ofBits x == Float.ofBits y) fields fields = true
  | [], _ => rfl
  | (key, value) :: rest, h => by
    have hvalue : value.same value = true := Proper.same_refl (h (key, value) List.mem_cons_self)
    have hrest := Proper.sameFields_refl fun pair hm => h pair (List.mem_cons_of_mem _ hm)
    rw [same] at hvalue
    rw [agreeFields, hvalue, hrest, beq_self_eq_true]
    rfl

end

/-! ## 2. sorting the pairs of every object -/

mutual

theorem Numeric.proper_canonical : ∀ {a : Json}, a.Numeric → (canonical a).Proper
  | .null, _ => .null
  | .bool b, _ => .bool b
  | .int n, _ => .int n
  | .double _, .double h => .double h
  | .str text, _ => .str text
  | .arr _, .arr h => .arr (Numeric.proper_canonicalItems h)
  | .obj _, .obj _ h =>
    .obj (.sort _) fun pair hm =>
      Numeric.proper_canonicalFields h pair (Fields.mem_of_mem_sort hm)

theorem Numeric.proper_canonicalItems : ∀ {items : List Json}, (∀ item ∈ items, item.Numeric) →
    ∀ item ∈ canonicalItems items, item.Proper
  | [], _ => by simp [canonicalItems]
  | item :: rest, h => by
    intro item' hm
    rw [canonicalItems] at hm
    rcases List.mem_cons.1 hm with rfl | hm
    · exact Numeric.proper_canonical (h item List.mem_cons_self)
    · exact Numeric.proper_canonicalItems (fun i hi => h i (List.mem_cons_of_mem _ hi)) item' hm

theorem Numeric.proper_canonicalFields : ∀ {fields : List (String × Json)},
    (∀ pair ∈ fields, pair.2.Numeric) → ∀ pair ∈ canonicalFields fields, pair.2.Proper
  | [], _ => by simp [canonicalFields]
  | (key, value) :: rest, h => by
    intro pair hm
    rw [canonicalFields] at hm
    rcases List.mem_cons.1 hm with rfl | hm
    · exact Numeric.proper_canonical (h (key, value) List.mem_cons_self)
    · exact Numeric.proper_canonicalFields (fun p hp => h p (List.mem_cons_of_mem _ hp)) pair hm

end

/-! ## 3. reading -/

theorem scalar_of_wordValue? {word : List Char} {value : Json} (h : wordValue? word = some value) :
    value.Numeric ∧ value.canonical = value := by
  unfold wordValue? nameValue? at h
  split at h
  · cases h
    exact ⟨.null, rfl⟩
  split at h
  · cases h
    exact ⟨.bool true, rfl⟩
  split at h
  · cases h
    exact ⟨.bool false, rfl⟩
  obtain ⟨l, -, hl⟩ := Option.bind_eq_some_iff.1 h
  unfold Literal.value? at hl
  dsimp only at hl
  split at hl
  · cases hl
    exact ⟨.int _, rfl⟩
  split at hl
  · cases hl
    exact ⟨.int _, rfl⟩
  · obtain ⟨bits, hbits, rfl⟩ := Option.map_eq_some_iff.1 hl
    exact ⟨.double (Literal.isNumber_of_toDouble? hbits), rfl⟩

theorem Shape.numeric_object {shape : Shape} {fields : List (String × Json)}
    (h : ∀ pair ∈ fields, pair.2.Numeric) : (shape.object fields).Numeric := by
  cases shape with
  | any => exact .obj trivial fun pair hm => h pair (Fields.mem_of_mem_sort hm)
  | _ => exact .obj trivial h

mutual

/-- Whatever is wanted of a spelling, every double that is read is a number. -/
theorem Spelling.numeric_of_read? : ∀ {spelling : Spelling} {shape : Shape} {depth : Nat} {value : Json},
    spelling.read? shape depth = some value → value.Numeric
  | .word _, _, _, _, h => (scalar_of_wordValue? h).1
  | .text pieces, _, _, _, h => by
    obtain ⟨text, -, rfl⟩ := Option.map_eq_some_iff.1 h
    exact .str text
  | .arr items, shape, depth, _, h => by
    rw [Spelling.read?] at h
    split at h
    · cases h
    · obtain ⟨values, hvalues, rfl⟩ := Option.map_eq_some_iff.1 h
      exact .arr (numeric_of_readItems? hvalues)
  | .obj fields, shape, depth, _, h => by
    rw [Spelling.read?] at h
    split at h
    · cases h
    · obtain ⟨values, hvalues, rfl⟩ := Option.map_eq_some_iff.1 h
      exact Shape.numeric_object (numeric_of_readFields? hvalues)

theorem numeric_of_readItems? : ∀ {items : List Spelling} {shape : Shape} {depth : Nat} {values : List Json},
    readItems? shape depth items = some values → ∀ value ∈ values, value.Numeric
  | [], _, _, _, h => by
    cases h
    simp
  | item :: rest, _, _, _, h => by
    obtain ⟨value, hvalue, h⟩ := Option.bind_eq_some_iff.1 h
    obtain ⟨values, hvalues, rfl⟩ := Option.map_eq_some_iff.1 h
    exact List.forall_mem_cons.2 ⟨Spelling.numeric_of_read? hvalue, numeric_of_readItems? hvalues⟩

theorem numeric_of_readFields? : ∀ {fields : List (List Piece × Spelling)} {shape : Shape} {depth : Nat}
    {values : List (String × Json)}, readFields? shape depth fields = some values →
      ∀ pair ∈ values, pair.2.Numeric
  | [], _, _, _, h => by
    cases h
    simp
  | (pieces, field) :: rest, shape, _, _, h => by
    obtain ⟨name, -, h⟩ := Option.bind_eq_some_iff.1 h
    split at h
    · exact numeric_of_readFields? h
    · obtain ⟨value, hvalue, h⟩ := Option.bind_eq_some_iff.1 h
      obtain ⟨values, hvalues, rfl⟩ := Option.map_eq_some_iff.1 h
      exact List.forall_mem_cons.2 ⟨Spelling.numeric_of_read? hvalue, numeric_of_readFields? hvalues⟩

end

mutual

/-- **The canonical value of a spelling** is the canonical form of what it spells as it stands. -/
theorem Spelling.read?_any (depth : Nat) : ∀ spelling : Spelling,
    spelling.read? .any depth = (spelling.read? .plain depth).map canonical
  | .word word => by
    rw [Spelling.read?, Spelling.read?]
    cases h : wordValue? word with
    | none => rfl
    | some value => rw [Option.map_some, (scalar_of_wordValue? h).2]
  | .text pieces => by
    rw [Spelling.read?, Spelling.read?]
    cases Piece.text? pieces <;> rfl
  | .arr items => by
    rw [Spelling.read?, Spelling.read?, readItems?_any (depth - 1) items]
    cases readItems? .plain (depth - 1) items <;> split <;> rfl
  | .obj fields => by
    rw [Spelling.read?, Spelling.read?, readFields?_any (depth - 1) fields]
    cases readFields? .plain (depth - 1) fields <;> split <;> rfl

theorem readItems?_any (depth : Nat) : ∀ items : List Spelling,
    readItems? .any depth items = (readItems? .plain depth items).map canonicalItems
  | [] => rfl
  | item :: rest => by
    have hitem := Spelling.read?_any depth item
    have hrest := readItems?_any depth rest
    simp only [readItems?, Shape.first, Shape.rest, hitem, hrest]
    cases item.read? .plain depth with
    | none => rfl
    | some value => cases readItems? .plain depth rest <;> rfl

theorem readFields?_any (depth : Nat) : ∀ fields : List (List Piece × Spelling),
    readFields? .any depth fields = (readFields? .plain depth fields).map canonicalFields
  | [] => rfl
  | (pieces, field) :: rest => by
    have hfield := Spelling.read?_any depth field
    have hrest := readFields?_any depth rest
    simp only [readFields?, Shape.field?, hfield, hrest]
    cases Piece.text? pieces with
    | none => rfl
    | some name =>
      cases field.read? .plain depth with
      | none => rfl
      | some value => cases readFields? .plain depth rest <;> rfl

end

theorem numeric_of_readRaw? {text : String} {value : Json} (h : readRaw? text = some value) :
    value.Numeric := by
  obtain ⟨spelling, -, hvalue⟩ := Option.bind_eq_some_iff.1 h
  exact spelling.numeric_of_read? hvalue

theorem read?_eq_map (text : String) : read? text = (readRaw? text).map canonical := by
  rw [read?, readRaw?, readChars?, readChars?]
  cases Spelling.ofChars? (letters text) with
  | none => rfl
  | some spelling => exact spelling.read?_any maxDepth

/-- **What is read from a text is proper.** -/
theorem proper_of_read? {text : String} {value : Json} (h : read? text = some value) :
    value.Proper := by
  rw [read?_eq_map] at h
  obtain ⟨raw, hraw, rfl⟩ := Option.map_eq_some_iff.1 h
  exact (numeric_of_readRaw? hraw).proper_canonical

end Admission.Json
