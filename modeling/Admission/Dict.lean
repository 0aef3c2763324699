/-!
# Maps with text keys

A list of pairs is read as a map by its first pair with the key.  A `Dict` is such a list kept in
ascending order of its keys, each key once, so that equal maps are equal values and every printout
of a map has one order.  Keys are compared by code point.

* `Fields.get?_insert`, `Fields.get?_erase` say what writing and removing do to the view `get?`;
* `Fields.Sorted.insert`, `Fields.Sorted.erase` keep the order.
-/

namespace Admission

/-- Pairs of a key and a value. -/
abbrev Fields (α : Type) := List (String × α)

namespace Fields

variable {α β : Type}

/-- The value of the first pair with the key. -/
def get? (key : String) : Fields α → Option α
  | [] => none
  | (k, v) :: rest => if k = key then some v else get? key rest

/-- Ascending keys, each once. -/
def Sorted (fields : Fields α) : Prop := fields.Pairwise (fun a b => a.1 < b.1)

/-- Writes a value under a key at the key's place in the order. -/
def insert (key : String) (value : α) : Fields α → Fields α
  | [] => [(key, value)]
  | (k, v) :: rest =>
    if key < k then (key, value) :: (k, v) :: rest
    else if key = k then (key, value) :: rest
    else (k, v) :: insert key value rest

/-- Removes every pair with the key. -/
def erase (key : String) (fields : Fields α) : Fields α :=
  fields.filter (fun pair => pair.1 ≠ key)

/-- The pairs in order of their keys; of several values for one key the last stays. -/
def sort (fields : Fields α) : Fields α :=
  fields.foldl (fun sorted pair => sorted.insert pair.1 pair.2) []

/-! ## what the view sees -/

@[simp] theorem get?_nil (key : String) : get? key ([] : Fields α) = none := rfl

theorem get?_insert (key : String) (value : α) (fields : Fields α) (k : String) :
    (fields.insert key value).get? k = if k = key then some value else fields.get? k := by
  induction fields with
  | nil =>
    by_cases h : k = key
    · simp [insert, get?, h]
    · simp [insert, get?, h, Ne.symm h]
  | cons pair rest ih =>
    obtain ⟨k', v'⟩ := pair
    by_cases hlt : key < k'
    · simp only [insert, hlt, if_true, get?]
      by_cases h : k = key
      · simp [h]
      · simp [h, Ne.symm h]
    · by_cases heq : key = k'
      · subst heq
        simp only [insert, hlt, if_false, if_true, get?]
        by_cases h : k = key
        · simp [h]
        · simp [h, Ne.symm h]
      · simp only [insert, hlt, if_false, heq, get?, ih]
        by_cases h : k = key
        · subst h; simp [Ne.symm heq]
        · simp [h]

theorem get?_erase (key : String) (fields : Fields α) (k : String) :
    (fields.erase key).get? k = if k = key then none else fields.get? k := by
  induction fields with
  | nil => simp [erase]
  | cons pair rest ih =>
    obtain ⟨k', v'⟩ := pair
    by_cases heq : k' = key
    · subst heq
      have : Fields.erase k' ((k', v') :: rest) = Fields.erase k' rest := by simp [erase]
      rw [this, ih]
      by_cases h : k = k'
      · simp [h]
      · simp [get?, h, Ne.symm h]
    · have : Fields.erase key ((k', v') :: rest) = (k', v') :: Fields.erase key rest := by
        simp [erase, heq]
      rw [this]
      simp only [get?, ih]
      by_cases h : k = key
      · subst h; simp [heq]
      · simp [h]

/-! ## order -/

theorem mem_insert {key : String} {value : α} {fields : Fields α} {pair : String × α}
    (h : pair ∈ fields.insert key value) : pair = (key, value) ∨ pair ∈ fields := by
  induction fields with
  | nil => simpa [insert] using h
  | cons head rest ih =>
    obtain ⟨k, v⟩ := head
    simp only [insert] at h
    split at h
    · simpa using h
    · split at h
      · rcases List.mem_cons.1 h with rfl | h
        · exact .inl rfl
        · exact .inr (List.mem_cons_of_mem _ h)
      · rcases List.mem_cons.1 h with rfl | h
        · exact .inr List.mem_cons_self
        · rcases ih h with h | h
          · exact .inl h
          · exact .inr (List.mem_cons_of_mem _ h)

theorem Sorted.insert {fields : Fields α} (h : fields.Sorted) (key : String) (value : α) :
    (fields.insert key value).Sorted := by
  induction fields with
  | nil => simp [Fields.insert, Sorted]
  | cons head rest ih =>
    obtain ⟨k, v⟩ := head
    obtain ⟨hhead, hrest⟩ := List.pairwise_cons.1 h
    simp only [Fields.insert]
    split
    · next hlt =>
      refine List.pairwise_cons.2 ⟨?_, h⟩
      intro pair hp
      rcases List.mem_cons.1 hp with rfl | hp
      · exact hlt
      · exact String.lt_trans hlt (hhead pair hp)
    · next hnlt =>
      split
      · next heq =>
        subst heq
        exact List.pairwise_cons.2 ⟨hhead, hrest⟩
      · next hne =>
        have hgt : k < key := by
          rcases Decidable.em (k < key) with hlt | hge
          · exact hlt
          · exact absurd (String.le_antisymm (String.not_lt.1 hge) (String.not_lt.1 hnlt)) hne
        refine List.pairwise_cons.2 ⟨?_, ih hrest⟩
        intro pair hp
        rcases mem_insert hp with rfl | hp
        · exact hgt
        · exact hhead pair hp

theorem Sorted.erase {fields : Fields α} (h : fields.Sorted) (key : String) :
    (fields.erase key).Sorted :=
  List.Pairwise.filter _ h

theorem Sorted.sort (fields : Fields α) : fields.sort.Sorted := by
  have step : ∀ (rest : Fields α) (sorted : Fields α), sorted.Sorted →
      (rest.foldl (fun sorted pair => sorted.insert pair.1 pair.2) sorted).Sorted := by
    intro rest
    induction rest with
    | nil => intro sorted h; exact h
    | cons pair rest ih => intro sorted h; exact ih _ (h.insert _ _)
  exact step fields [] List.Pairwise.nil

end Fields

/-- A map with text keys: its pairs in ascending order of the keys, each key once. -/
structure Dict (α : Type) where
  /-- The pairs, ascending. -/
  fields : Fields α
  sorted : fields.Sorted

namespace Dict

variable {α β : Type}

theorem ext {a b : Dict α} (h : a.fields = b.fields) : a = b := by
  cases a; cases b; cases h; rfl

instance [DecidableEq α] : DecidableEq (Dict α) := fun a b =>
  decidable_of_iff (a.fields = b.fields) ⟨ext, fun h => h ▸ rfl⟩

/-- The map without keys. -/
def empty : Dict α := ⟨[], List.Pairwise.nil⟩

instance : EmptyCollection (Dict α) := ⟨empty⟩

instance : Inhabited (Dict α) := ⟨empty⟩

/-- The map of a list of pairs; the last value of a key counts. -/
def ofFields (fields : Fields α) : Dict α := ⟨fields.sort, Fields.Sorted.sort fields⟩

/-- The value of a key. -/
def get? (dict : Dict α) (key : String) : Option α := dict.fields.get? key

/-- Whether the key has a value. -/
def contains (dict : Dict α) (key : String) : Bool := (dict.get? key).isSome

/-- The map with a value for the key. -/
def insert (dict : Dict α) (key : String) (value : α) : Dict α :=
  ⟨dict.fields.insert key value, dict.sorted.insert key value⟩

/-- The map without the key. -/
def erase (dict : Dict α) (key : String) : Dict α :=
  ⟨dict.fields.erase key, dict.sorted.erase key⟩

/-- Whether no key has a value. -/
def isEmpty (dict : Dict α) : Bool := dict.fields.isEmpty

/-- The number of keys. -/
def size (dict : Dict α) : Nat := dict.fields.length

/-- The keys, ascending. -/
def keys (dict : Dict α) : List String := dict.fields.map (·.1)

/-- The same keys with values changed by a function. -/
def map (f : α → β) (dict : Dict α) : Dict β :=
  ⟨dict.fields.map (fun pair => (pair.1, f pair.2)), by
    rw [Fields.Sorted, List.pairwise_map]
    exact dict.sorted⟩

@[simp] theorem get?_empty (key : String) : (∅ : Dict α).get? key = none := rfl

theorem get?_insert (dict : Dict α) (key : String) (value : α) (k : String) :
    (dict.insert key value).get? k = if k = key then some value else dict.get? k :=
  Fields.get?_insert key value dict.fields k

theorem get?_erase (dict : Dict α) (key k : String) :
    (dict.erase key).get? k = if k = key then none else dict.get? k :=
  Fields.get?_erase key dict.fields k

end Dict

end Admission
