import Admission.Dict

/-!
# Ordered pairs and what is seen of them

Of pairs in ascending order nothing matters but the view `get?` (`Fields.Sorted.ext`).  So equations
between writings, removals and sorting are equations between views.
-/

namespace Admission.Fields

variable {α : Type}

/-! ## 1. the view and the pairs -/

theorem mem_of_get? {key : String} {value : α} {fields : Fields α}
    (h : fields.get? key = some value) : (key, value) ∈ fields := by
  induction fields with
  | nil => cases h
  | cons pair rest ih =>
    obtain ⟨k, v⟩ := pair
    simp only [get?] at h
    split at h
    · rename_i hk
      cases h
      rw [hk]
      exact List.mem_cons_self
    · exact List.mem_cons_of_mem _ (ih h)

theorem get?_eq_none_iff {key : String} {fields : Fields α} :
    fields.get? key = none ↔ ∀ pair ∈ fields, pair.1 ≠ key := by
  induction fields with
  | nil => simp
  | cons pair rest ih =>
    obtain ⟨k, v⟩ := pair
    by_cases hk : k = key
    · simp [get?, hk]
    · simp [get?, hk, ih]

namespace Sorted

variable {fields other : Fields α}

theorem get?_of_mem (h : fields.Sorted) {pair : String × α} (hm : pair ∈ fields) :
    fields.get? pair.1 = some pair.2 := by
  induction fields with
  | nil => cases hm
  | cons head rest ih =>
    obtain ⟨k, v⟩ := head
    obtain ⟨hhead, hrest⟩ := List.pairwise_cons.1 h
    rcases List.mem_cons.1 hm with rfl | hm
    · simp [get?]
    · have hlt : k < pair.1 := hhead pair hm
      have hne : k ≠ pair.1 := fun heq => String.lt_irrefl _ (heq ▸ hlt)
      simp only [get?, hne, if_false]
      exact ih hrest hm

theorem get?_of_below {key : String} (h : ∀ pair ∈ fields, key < pair.1) :
    fields.get? key = none := by
  rw [get?_eq_none_iff]
  exact fun pair hm heq => String.lt_irrefl _ (heq ▸ h pair hm)

theorem get?_of_lt {key k : String} {v : α} {rest : Fields α} (h : Sorted ((k, v) :: rest))
    (hk : key < k) : get? key ((k, v) :: rest) = none := by
  refine get?_of_below fun pair hm => ?_
  rcases List.mem_cons.1 hm with rfl | hm
  · exact hk
  · exact String.lt_trans hk ((List.pairwise_cons.1 h).1 pair hm)

/-- **Pairs in order are known by their view.** -/
theorem ext (h : fields.Sorted) (ho : other.Sorted)
    (hview : ∀ key, fields.get? key = other.get? key) : fields = other := by
  induction fields generalizing other with
  | nil =>
    cases other with
    | nil => rfl
    | cons pair rest =>
      have hget := hview pair.1
      rw [get?_of_mem ho List.mem_cons_self] at hget
      cases hget
  | cons pair rest ih =>
    obtain ⟨k, v⟩ := pair
    cases other with
    | nil =>
      have hget := hview k
      simp [get?] at hget
    | cons pair' rest' =>
      obtain ⟨k', v'⟩ := pair'
      -- the first keys are the same: the smaller one would be seen on one side only
      have hk : k = k' := by
        rcases Decidable.em (k < k') with hlt | hge
        · have hget := hview k
          rw [get?_of_lt ho hlt] at hget
          simp [get?] at hget
        · rcases Decidable.em (k' < k) with hlt | hge'
          · have hget := hview k'
            rw [get?_of_lt h hlt] at hget
            simp [get?] at hget
          · exact String.le_antisymm (String.not_lt.1 hge') (String.not_lt.1 hge)
      subst hk
      have hv : v = v' := by
        have hget := hview k
        simpa [get?] using hget
      subst hv
      obtain ⟨hhead, hrest⟩ := List.pairwise_cons.1 h
      obtain ⟨hhead', hrest'⟩ := List.pairwise_cons.1 ho
      refine congrArg _ (ih hrest hrest' fun key => ?_)
      rcases Decidable.em (k = key) with rfl | hne
      · rw [get?_of_below hhead, get?_of_below hhead']
      · have hget := hview key
        simpa [get?, hne] using hget

theorem insert_self (h : fields.Sorted) {key : String} {value : α}
    (hget : fields.get? key = some value) : fields.insert key value = fields := by
  refine ext (h.insert key value) h fun k => ?_
  rw [get?_insert]
  split
  · rename_i hk
    rw [hk, hget]
  · rfl

end Sorted

/-! ## 2. writing or removing -/

/-- Writes a value under a key; without a value, removes the key. -/
def update (key : String) : Option α → Fields α → Fields α
  | some value, fields => fields.insert key value
  | none, fields => fields.erase key

theorem get?_update (key : String) (value : Option α) (fields : Fields α) (k : String) :
    (fields.update key value).get? k = if k = key then value else fields.get? k := by
  cases value with
  | none => exact get?_erase key fields k
  | some value => exact get?_insert key value fields k

theorem Sorted.update {fields : Fields α} (h : fields.Sorted) (key : String) (value : Option α) :
    (fields.update key value).Sorted := by
  cases value with
  | none => exact h.erase key
  | some value => exact h.insert key value

theorem mem_update {key : String} {value : Option α} {fields : Fields α} {pair : String × α}
    (h : pair ∈ fields.update key value) : value = some pair.2 ∨ pair ∈ fields := by
  cases value with
  | none => exact .inr (List.mem_filter.1 h).1
  | some value =>
    rcases mem_insert h with rfl | h
    · exact .inl rfl
    · exact .inr h

theorem Sorted.update_update {fields : Fields α} (h : fields.Sorted) (key : String)
    (first second : Option α) :
    (fields.update key first).update key second = fields.update key second := by
  refine ext ((h.update key first).update key second) (h.update key second) fun k => ?_
  simp only [get?_update]
  split <;> rfl

theorem Sorted.update_comm {fields : Fields α} (h : fields.Sorted) {key other : String}
    (hne : key ≠ other) (first second : Option α) :
    (fields.update key first).update other second =
      (fields.update other second).update key first := by
  refine ext ((h.update key first).update other second) ((h.update other second).update key first)
    fun k => ?_
  simp only [get?_update]
  by_cases hk : k = other
  · rw [if_pos hk, if_neg (hk ▸ hne.symm), if_pos hk]
  · rw [if_neg hk, if_neg hk]

/-! ## 3. sorting -/

theorem mem_of_mem_sort {fields : Fields α} {pair : String × α} (h : pair ∈ fields.sort) :
    pair ∈ fields := by
  have hstep : ∀ (rest sorted : Fields α),
      pair ∈ rest.foldl (fun sorted pair => sorted.insert pair.1 pair.2) sorted →
        pair ∈ sorted ∨ pair ∈ rest := by
    intro rest
    induction rest with
    | nil => exact fun sorted h => .inl h
    | cons head rest ih =>
      intro sorted h
      rcases ih _ h with h | h
      · rcases mem_insert h with rfl | h
        · exact .inr List.mem_cons_self
        · exact .inl h
      · exact .inr (List.mem_cons_of_mem _ h)
  rcases hstep fields [] h with h | h
  · cases h
  · exact h

theorem get?_append (key : String) (xs ys : Fields α) :
    get? key (xs ++ ys) = (get? key xs).or (get? key ys) := by
  induction xs with
  | nil => rfl
  | cons pair rest ih =>
    obtain ⟨k, v⟩ := pair
    by_cases hk : k = key
    · simp [get?, hk]
    · simp [get?, hk, ih]

/-- After sorting the last value of a key is seen. -/
theorem get?_sort (fields : Fields α) (key : String) :
    fields.sort.get? key = get? key fields.reverse := by
  have hstep : ∀ rest sorted : Fields α,
      (rest.foldl (fun sorted pair => sorted.insert pair.1 pair.2) sorted).get? key =
        (get? key rest.reverse).or (sorted.get? key) := by
    intro rest
    induction rest with
    | nil => exact fun sorted => rfl
    | cons pair rest ih =>
      intro sorted
      rw [List.foldl_cons, ih, List.reverse_cons, get?_append, Option.or_assoc, get?_insert]
      by_cases hk : key = pair.1
      · simp [get?, hk]
      · simp [get?, hk, Ne.symm hk]
  have h := hstep fields []
  rw [get?_nil, Option.or_none] at h
  exact h

theorem Sorted.sort_eq {fields : Fields α} (h : fields.Sorted) : fields.sort = fields := by
  refine ext (.sort fields) h fun key => ?_
  rw [get?_sort]
  cases hget : get? key fields.reverse with
  | none =>
    rw [get?_eq_none_iff] at hget
    exact (get?_eq_none_iff.2 fun pair hm => hget pair (List.mem_reverse.2 hm)).symm
  | some value => exact (h.get?_of_mem (List.mem_reverse.1 (mem_of_get? hget))).symm

end Admission.Fields
