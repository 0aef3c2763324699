import Admission.Proofs.Json.Proper
import Admission.Proofs.Json.Text

/-!
# What the text of a value is read as

Two things may happen to a value that is written and read: nested too deep it is refused, and a double that reading
does not meet again digit by digit is replaced by the one it meets (`Json.reread?`).  Nothing else happens to it
(`Storable.read?_spell`), so a value is read as itself just if it is not too deep and each of its doubles is read as
itself (`reread?_eq_self_iff`).

In a record all fields are read so, each as far as it is wanted (`read?_ofSome`).
-/

namespace Admission.Json

/-! ## 1. Storable values -/

/-- **A value as it is kept**: its whole numbers have 64 bits, its doubles are finite, and the keys of every object are
in order. -/
inductive Storable : Json → Prop
  | null : Storable .null
  | bool (b : Bool) : Storable (.bool b)
  | int {n : Int} (h : Width.fits 64 n = true) : Storable (.int n)
  | double {bits : UInt64} (h : (Decimal.Binary.ofBits? bits).isSome = true) : Storable (.double bits)
  | str (text : String) : Storable (.str text)
  | arr {items : List Json} (h : ∀ item ∈ items, Storable item) : Storable (.arr items)
  | obj {fields : List (String × Json)} (keys : Fields.Sorted fields) (h : ∀ pair ∈ fields, Storable pair.2) :
    Storable (.obj fields)

mutual

/-- How deep arrays and objects are nested in a value. -/
def height : Json → Nat
  | .arr items => heightItems items + 1
  | .obj fields => heightFields fields + 1
  | _ => 0

def heightItems : List Json → Nat
  | [] => 0
  | item :: rest => max (height item) (heightItems rest)

def heightFields : List (String × Json) → Nat
  | [] => 0
  | (_, value) :: rest => max (height value) (heightFields rest)

end

mutual

/-- The doubles in a value. -/
def doublesIn : Json → List UInt64
  | .double bits => [bits]
  | .arr items => doublesInItems items
  | .obj fields => doublesInFields fields
  | _ => []

def doublesInItems : List Json → List UInt64
  | [] => []
  | item :: rest => doublesIn item ++ doublesInItems rest

def doublesInFields : List (String × Json) → List UInt64
  | [] => []
  | (_, value) :: rest => doublesIn value ++ doublesInFields rest

end

/-! ## 2. Reading what was written -/

mutual

/-- **What the text of a value is read as**, arrays and objects nested at most so deep. -/
def reread? (depth : Nat) : Json → Option Json
  | .double bits => (rereadDouble? bits).map .double
  | .arr items => if depth = 0 then none else (rereadItems? (depth - 1) items).map .arr
  | .obj fields => if depth = 0 then none else (rereadFields? (depth - 1) fields).map .obj
  | value => some value

def rereadItems? (depth : Nat) : List Json → Option (List Json)
  | [] => some []
  | item :: rest =>
    (reread? depth item).bind fun value => (rereadItems? depth rest).map (value :: ·)

def rereadFields? (depth : Nat) : List (String × Json) → Option (List (String × Json))
  | [] => some []
  | (key, field) :: rest =>
    (reread? depth field).bind fun value => (rereadFields? depth rest).map ((key, value) :: ·)

end

theorem rereadItems?_eq_mapM (depth : Nat) (items : List Json) :
    rereadItems? depth items = items.mapM (reread? depth) := by
  induction items with
  | nil => rfl
  | cons item items ih =>
    rw [rereadItems?, List.mapM_cons, ih]
    cases item.reread? depth <;> cases items.mapM (reread? depth) <;> rfl

theorem rereadFields?_eq_mapM (depth : Nat) (fields : List (String × Json)) :
    rereadFields? depth fields = fields.mapM fun (key, value) => (value.reread? depth).map (key, ·) := by
  induction fields with
  | nil => rfl
  | cons pair fields ih =>
    obtain ⟨key, value⟩ := pair
    rw [rereadFields?, List.mapM_cons, ← ih]
    dsimp only
    cases value.reread? depth <;> cases rereadFields? depth fields <;> rfl

theorem chars?_spellText (chars : List Char) : Piece.chars? (chars.map pieceOf) = some chars := by
  induction chars with
  | nil => rfl
  | cons c chars ih =>
    rw [List.map_cons, pieceOf]
    split
    · rename_i hcontrol
      have hhigh : isHighSurrogate c.toNat = false := by simp [isHighSurrogate]; omega
      have hlow : isLowSurrogate c.toNat = false := by simp [isLowSurrogate]; omega
      unfold Piece.chars?
      rw [hhigh, hlow, ih, Char.ofNat_toNat]
      rfl
    · rw [Piece.chars?, ih]
      rfl

theorem text?_spellText (text : String) : Piece.text? (spellText text) = some text := by
  rw [Piece.text?, spellText, chars?_spellText, Option.map_some, String.ofList_toList]

/-- All of a value is wanted. -/
structure Shape.Whole (shape : Shape) : Prop where
  field : ∀ name, shape.field? name = some shape
  first : shape.first = shape
  rest : shape.rest = shape
  object : ∀ {fields : List (String × Json)}, Fields.Sorted fields → shape.object fields = .obj fields

theorem Shape.whole_plain : Shape.plain.Whole := ⟨fun _ => rfl, rfl, rfl, fun _ => rfl⟩

theorem Shape.whole_any : Shape.any.Whole := ⟨fun _ => rfl, rfl, rfl, fun h => congrArg _ h.sort_eq⟩

section Whole

variable {shape : Shape} (hshape : shape.Whole) {depth : Nat}
include hshape

theorem readItems?_spellItems {items : List Json} {f : Json → Option Json}
    (h : ∀ item ∈ items, item.spell.read? shape depth = f item) :
    readItems? shape depth (spellItems items) = items.mapM f := by
  induction items with
  | nil => rfl
  | cons item items ih =>
    obtain ⟨hitem, hitems⟩ := List.forall_mem_cons.1 h
    rw [spellItems, readItems?, List.mapM_cons, hshape.first, hshape.rest, hitem, ih hitems]
    cases f item <;> cases items.mapM f <;> rfl

theorem readFields?_spellFields {fields : List (String × Json)} {f : Json → Option Json}
    (h : ∀ pair ∈ fields, pair.2.spell.read? shape depth = f pair.2) :
    readFields? shape depth (spellFields fields) =
      fields.mapM fun (key, value) => (f value).map (key, ·) := by
  induction fields with
  | nil => rfl
  | cons pair fields ih =>
    obtain ⟨hpair, hfields⟩ := List.forall_mem_cons.1 h
    obtain ⟨key, value⟩ := pair
    rw [spellFields, readFields?, List.mapM_cons, text?_spellText, Option.bind_some, hshape.field, ← ih hfields]
    dsimp only
    rw [hpair]
    cases f value <;> cases readFields? shape depth (spellFields fields) <;> rfl

end Whole

theorem keys_of_rereadFields? {depth : Nat} {fields values : List (String × Json)}
    (h : rereadFields? depth fields = some values) : values.map (·.1) = fields.map (·.1) := by
  induction fields generalizing values with
  | nil => cases h; rfl
  | cons pair fields ih =>
    obtain ⟨value, -, h⟩ := Option.bind_eq_some_iff.1 h
    obtain ⟨rest, hrest, rfl⟩ := Option.map_eq_some_iff.1 h
    rw [List.map_cons, List.map_cons, ih hrest]

theorem sorted_of_keys {fields values : List (String × Json)} (h : values.map (·.1) = fields.map (·.1))
    (hfields : Fields.Sorted fields) : Fields.Sorted values := by
  have hkeys : (fields.map (·.1)).Pairwise (· < ·) := List.pairwise_map.2 hfields
  rw [← h] at hkeys
  exact List.pairwise_map.1 hkeys

/-- **A value is read of its text as `reread?` says**, in whatever form the pairs of objects are wanted. -/
theorem Storable.read?_spell {value : Json} (h : value.Storable) {shape : Shape} (hshape : shape.Whole)
    (depth : Nat) : value.spell.read? shape depth = value.reread? depth := by
  induction h generalizing depth with
  | null => rfl
  | bool b => cases b <;> rfl
  | int h => exact wordValue?_int h
  | double h => exact wordValue?_double h
  | str text =>
    rw [spell, Spelling.read?, text?_spellText]
    rfl
  | arr _ ih =>
    rw [spell, Spelling.read?, reread?, readItems?_spellItems hshape fun item hm => ih item hm _,
      rereadItems?_eq_mapM]
  | obj keys _ ih =>
    rw [spell, Spelling.read?, reread?, readFields?_spellFields hshape fun pair hm => ih pair hm _,
      ← rereadFields?_eq_mapM]
    split
    · rfl
    · refine Option.map_congr fun values hvalues => ?_
      exact hshape.object (sorted_of_keys (keys_of_rereadFields? hvalues) keys)

/-! ## 3. What is read as itself -/

mutual

/-- **A value is read as itself** just if it is not nested too deep and each of its doubles is read as itself. -/
theorem reread?_eq_self_iff (depth : Nat) : ∀ value : Json, value.reread? depth = some value ↔
    value.height ≤ depth ∧ ∀ bits ∈ value.doublesIn, rereadDouble? bits = some bits
  | .null => by simp [reread?, height, doublesIn]
  | .bool _ => by simp [reread?, height, doublesIn]
  | .int _ => by simp [reread?, height, doublesIn]
  | .double bits => by simp [reread?, height, doublesIn]
  | .str _ => by simp [reread?, height, doublesIn]
  | .arr items => by
    rw [reread?, height, doublesIn]
    split
    · rename_i hdepth
      exact iff_of_false nofun fun h => by omega
    · rw [show heightItems items + 1 ≤ depth ↔ heightItems items ≤ depth - 1 by omega,
        ← rereadItems?_eq_self_iff (depth - 1) items]
      simp
  | .obj fields => by
    rw [reread?, height, doublesIn]
    split
    · rename_i hdepth
      exact iff_of_false nofun fun h => by omega
    · rw [show heightFields fields + 1 ≤ depth ↔ heightFields fields ≤ depth - 1 by omega,
        ← rereadFields?_eq_self_iff (depth - 1) fields]
      simp

theorem rereadItems?_eq_self_iff (depth : Nat) : ∀ items : List Json, rereadItems? depth items = some items ↔
    heightItems items ≤ depth ∧ ∀ bits ∈ doublesInItems items, rereadDouble? bits = some bits
  | [] => by simp [rereadItems?, heightItems, doublesInItems]
  | item :: rest => by
    have hsplit : rereadItems? depth (item :: rest) = some (item :: rest) ↔
        item.reread? depth = some item ∧ rereadItems? depth rest = some rest := by
      rw [rereadItems?]
      cases item.reread? depth <;> cases rereadItems? depth rest <;> simp
    rw [hsplit, reread?_eq_self_iff depth item, rereadItems?_eq_self_iff depth rest, heightItems,
      doublesInItems, List.forall_mem_append, max_le_iff, and_and_and_comm]

theorem rereadFields?_eq_self_iff (depth : Nat) : ∀ fields : List (String × Json),
    rereadFields? depth fields = some fields ↔
      heightFields fields ≤ depth ∧ ∀ bits ∈ doublesInFields fields, rereadDouble? bits = some bits
  | [] => by simp [rereadFields?, heightFields, doublesInFields]
  | (key, value) :: rest => by
    have hsplit : rereadFields? depth ((key, value) :: rest) = some ((key, value) :: rest) ↔
        value.reread? depth = some value ∧ rereadFields? depth rest = some rest := by
      rw [rereadFields?]
      cases value.reread? depth <;> cases rereadFields? depth rest <;> simp
    rw [hsplit, reread?_eq_self_iff depth value, rereadFields?_eq_self_iff depth rest, heightFields,
      doublesInFields, List.forall_mem_append, max_le_iff, and_and_and_comm]

end

/-! ## 4. Records -/

/-- What is read of a field, if it is there. -/
def readColumn? (fields : List (String × Shape)) (depth : Nat) (column : String × Option Json) :
    Option (String × Option Json) :=
  (column.2.mapM fun value =>
    (fields.lookup column.1).bind fun shape => value.spell.read? shape depth).map (column.1, ·)

theorem readColumn?_map {α : Type} {write : α → Json} {f : α → Option α} {fields : List (String × Shape)}
    {key : String} {shape : Shape} {depth : Nat} (hshape : fields.lookup key = some shape) {a? : Option α}
    (h : ∀ a ∈ a?, (write a).spell.read? shape depth = (f a).map write) :
    readColumn? fields depth (key, a?.map write) = (a?.mapM f).map fun b? => (key, b?.map write) := by
  cases a? with
  | none => rfl
  | some a =>
    have ha := h a rfl
    cases hf : f a <;> simp [readColumn?, Option.mapM, hshape, ha, hf]

theorem readColumn?_any {fields : List (String × Shape)} {key : String} (hshape : fields.lookup key = some .any)
    {value? : Option Json} (h : ∀ value ∈ value?, value.Storable) (depth : Nat) :
    readColumn? fields depth (key, value?) = (value?.mapM (reread? depth)).map (key, ·) := by
  have hread : ∀ value ∈ value?, value.spell.read? .any depth = (value.reread? depth).map fun v => v :=
    fun value hm => by rw [(h value hm).read?_spell Shape.whole_any, Option.map_id']
  have hcolumn := readColumn?_map hshape hread
  simpa only [Option.map_id'] using hcolumn

/-- The fields of a record that have a value. -/
def columnsOf (columns : List (String × Option Json)) : List (String × Json) :=
  columns.filterMap fun (key, value?) => value?.map (key, ·)

theorem readFields?_columns {fields : List (String × Shape)} {columns : List (String × Option Json)}
    (h : ∀ column ∈ columns, (fields.lookup column.1).isSome = true) (depth : Nat) :
    readFields? (.record fields) depth (spellFields (columnsOf columns)) =
      (columns.mapM (readColumn? fields depth)).map columnsOf := by
  induction columns with
  | nil => rfl
  | cons column columns ih =>
    obtain ⟨hcolumn, hcolumns⟩ := List.forall_mem_cons.1 h
    obtain ⟨key, value?⟩ := column
    have hrest := ih hcolumns
    rw [List.mapM_cons]
    cases value? with
    | none =>
      refine hrest.trans ?_
      cases columns.mapM (readColumn? fields depth) <;> rfl
    | some value =>
      obtain ⟨shape, hshape⟩ := Option.isSome_iff_exists.1 hcolumn
      have hcons : columnsOf ((key, some value) :: columns) = (key, value) :: columnsOf columns := rfl
      have hfield : (Shape.record fields).field? key = some shape := hshape
      rw [hcons, spellFields, readFields?, text?_spellText, Option.bind_some, hfield, hrest, readColumn?]
      dsimp only
      rw [hshape]
      cases hread : value.spell.read? shape depth with
      | none => simp [Option.mapM, hread]
      | some v =>
        cases columns.mapM (readColumn? fields depth) with
        | none => simp [Option.mapM, hread]
        | some columns' => simp [Option.mapM, hread, columnsOf]

/-- **A record is read field by field**, if all its fields are known. -/
theorem read?_ofSome {fields : List (String × Shape)} {columns : List (String × Option Json)}
    (h : ∀ column ∈ columns, (fields.lookup column.1).isSome = true) (depth : Nat) :
    (ofSome columns).spell.read? (.record fields) (depth + 1) =
      (columns.mapM (readColumn? fields depth)).map ofSome := by
  rw [ofSome, spell, Spelling.read?, if_neg (Nat.succ_ne_zero depth), Nat.add_sub_cancel]
  refine (congrArg _ (readFields?_columns h depth)).trans ?_
  rw [Option.map_map]
  rfl

/-! ## 5. What is read as itself, as far as it is wanted -/

/-- **A value is read as itself**, as far as it is wanted. -/
def Kept (shape : Shape) (depth : Nat) (value : Json) : Prop := value.spell.read? shape depth = some value

section Kept

variable {shape : Shape} {depth : Nat}

theorem kept_bool (shape : Shape) (depth : Nat) (b : Bool) : Kept shape depth (.bool b) := by
  cases b <;> rfl

theorem kept_str (shape : Shape) (depth : Nat) (text : String) : Kept shape depth (.str text) := by
  rw [Kept, spell, Spelling.read?, text?_spellText]
  rfl

theorem kept_int {n : Int} (h : Width.fits 64 n = true) : Kept shape depth (.int n) := wordValue?_int h

theorem kept_arr {items : List Json} (h : ∀ item ∈ items, Kept .plain depth item) :
    Kept .plain (depth + 1) (.arr items) := by
  have hitems : readItems? .plain depth (spellItems items) = some items := by
    rw [readItems?_spellItems (f := some) Shape.whole_plain h]
    exact List.mapM_pure.trans (congrArg some (List.map_id' items))
  rw [Kept, spell, Spelling.read?, if_neg (Nat.succ_ne_zero depth), Nat.add_sub_cancel, hitems]
  rfl

theorem kept_obj {fields : List (String × Json)} (h : ∀ pair ∈ fields, Kept .plain depth pair.2) :
    Kept .plain (depth + 1) (.obj fields) := by
  have hfields : readFields? .plain depth (spellFields fields) = some fields := by
    rw [readFields?_spellFields (f := some) Shape.whole_plain h]
    exact List.mapM_pure.trans (congrArg some (List.map_id' fields))
  rw [Kept, spell, Spelling.read?, if_neg (Nat.succ_ne_zero depth), Nat.add_sub_cancel, hfields]
  rfl

theorem kept_ofStrings (texts : List String) : Kept .plain (depth + 1) (ofStrings texts) := by
  refine kept_arr fun item hm => ?_
  obtain ⟨text, -, rfl⟩ := List.mem_map.1 hm
  exact kept_str _ _ text

theorem kept_ofDict {α : Type} {write : α → Json} {dict : Dict α}
    (h : ∀ pair ∈ dict.fields, Kept .plain depth (write pair.2)) :
    Kept .plain (depth + 1) (ofDict (dict.map write)) := by
  refine kept_obj fun pair hm => ?_
  obtain ⟨⟨key, a⟩, hpair, rfl⟩ := List.mem_map.1 hm
  exact h (key, a) hpair

theorem kept_some {value : Json} (h : Kept shape depth value) : ∀ v ∈ some value, Kept shape depth v :=
  fun _ hv => Option.mem_some.1 hv ▸ h

theorem kept_map {α : Type} {write : α → Json} {a? : Option α} (h : ∀ a ∈ a?, Kept shape depth (write a)) :
    ∀ v ∈ a?.map write, Kept shape depth v := by
  intro v hv
  obtain ⟨a, ha, rfl⟩ := Option.map_eq_some_iff.1 hv
  exact h a ha

theorem kept_nonempty (text : String) : ∀ value ∈ nonempty text, Kept shape depth value := by
  intro value hm
  rw [nonempty] at hm
  split at hm
  · cases hm
  · cases hm
    exact kept_str _ _ text

theorem readColumn?_kept {fields : List (String × Shape)} {key : String} (hshape : fields.lookup key = some shape)
    {value? : Option Json} (h : ∀ value ∈ value?, Kept shape depth value) :
    readColumn? fields depth (key, value?) = some (key, value?) := by
  cases value? with
  | none => rfl
  | some value =>
    have hvalue : value.spell.read? shape depth = some value := h value rfl
    simp [readColumn?, Option.mapM, hshape, hvalue]

theorem kept_ofSome {fields : List (String × Shape)} {columns : List (String × Option Json)}
    (h : ∀ column ∈ columns, ∃ shape, fields.lookup column.1 = some shape ∧
      ∀ value ∈ column.2, Kept shape depth value) : Kept (.record fields) (depth + 1) (ofSome columns) := by
  have hknown : ∀ column ∈ columns, (fields.lookup column.1).isSome = true := fun column hm => by
    obtain ⟨shape, hshape, -⟩ := h column hm
    rw [hshape]
    rfl
  have hcolumns : columns.mapM (readColumn? fields depth) = some columns := by
    induction columns with
    | nil => rfl
    | cons column columns ih =>
      obtain ⟨⟨shape, hshape, hvalue⟩, hrest⟩ := List.forall_mem_cons.1 h
      rw [List.mapM_cons, readColumn?_kept hshape hvalue, ih hrest (List.forall_mem_cons.1 hknown).2]
      rfl
  rw [Kept, read?_ofSome hknown, hcolumns, Option.map_some]

theorem lookup_plain {names : List String} {name : String} (h : name ∈ names) :
    (names.map fun name => (name, Shape.plain)).lookup name = some .plain := by
  induction names with
  | nil => cases h
  | cons first names ih =>
    rw [List.map_cons, List.lookup_cons]
    split
    · rfl
    · rename_i hne
      exact ih ((List.mem_cons.1 h).resolve_left (by simpa using hne))

theorem kept_flat {names : List String} {columns : List (String × Option Json)}
    (h : ∀ column ∈ columns, column.1 ∈ names ∧ ∀ value ∈ column.2, Kept .plain depth value) :
    Kept (.flat names) (depth + 1) (ofSome columns) :=
  kept_ofSome fun column hm => ⟨.plain, lookup_plain (h column hm).1, (h column hm).2⟩

theorem kept_texts {names : List String} {columns : List (String × String)}
    (h : ∀ column ∈ columns, column.1 ∈ names) :
    Kept (.flat names) (depth + 1) (ofSome (columns.map fun (key, text) => (key, some (.str text)))) := by
  refine kept_flat fun column hm => ?_
  obtain ⟨⟨key, text⟩, hpair, rfl⟩ := List.mem_map.1 hm
  exact ⟨h (key, text) hpair, kept_some (kept_str _ _ text)⟩

end Kept

end Admission.Json
