import Admission.Proofs.Results
import Admission.Webhook.Selection

/-!
# What a label selector says

A selector is wrong if one of its requirements is (`Requirement.Fault`), and then it is wrong for all labels.
One that is right says of labels what its label pairs and its requirements say of them, all of them together
(`LabelSelector.Selected`), and each of these says something of one label only.  So it does not matter in which
order and how often the conditions stand there, a label pair is as good as a requirement with one value, and
labels that no condition names do not count.

The values of a label are looked for in a list, but an absent label has no value: it is in no list, so `NotIn`
holds of it and `In` does not.  That is why each operator has a statement of its own in `Requirement.Met`.
-/

namespace Admission

/-! ## 1. Requirements -/

namespace Requirement

/-- The operators there are. -/
def operators : List String := ["In", "NotIn", "Exists", "DoesNotExist"]

/-- **What is wrong with a requirement.** -/
inductive Fault (r : Requirement) : SelectorError → Prop where
  | unknownOperator (unknown : r.operator ∉ operators) : Fault r (.invalidOperator r.operator)
  | withoutValues (operator : r.operator = "In" ∨ r.operator = "NotIn") (none : r.valueList = []) :
      Fault r (.missingValues r.key)
  | withValues (operator : r.operator = "Exists" ∨ r.operator = "DoesNotExist")
      (some : r.valueList ≠ []) : Fault r (.unexpectedValues r.key)

/-- Nothing is wrong with a requirement. -/
def IsSound (r : Requirement) : Prop := ∀ e, ¬ r.Fault e

/-- **What a requirement says of labels**, operator by operator. -/
inductive Met (r : Requirement) (labels : Labels) : Prop where
  | isIn {value : String} (operator : r.operator = "In") (found : labels.get? r.key = some value)
      (listed : value ∈ r.valueList)
  /-- An absent label has none of the values. -/
  | notIn (operator : r.operator = "NotIn")
      (unlisted : ∀ value ∈ r.valueList, labels.get? r.key ≠ some value)
  | present {value : String} (operator : r.operator = "Exists")
      (found : labels.get? r.key = some value)
  | absent (operator : r.operator = "DoesNotExist") (missing : labels.get? r.key = none)

variable {r r' : Requirement} {labels other : Labels}

theorem mem_operators {operator : String} : operator ∈ operators ↔
    operator = "In" ∨ operator = "NotIn" ∨ operator = "Exists" ∨ operator = "DoesNotExist" := by
  simp [operators]

theorem check_eq_error {e : SelectorError} : r.check = .error e ↔ r.Fault e := by
  unfold check
  constructor
  · intro h
    split at h
    · rename_i hoperator
      split at h
      · rename_i hnone
        cases h
        exact .withoutValues hoperator hnone
      · cases h
    · rename_i hneither
      split at h
      · rename_i hoperator
        split at h
        · cases h
        · rename_i hsome
          cases h
          exact .withValues hoperator hsome
      · rename_i hnor
        cases h
        refine .unknownOperator fun hmem => ?_
        rcases mem_operators.1 hmem with h | h | h | h
        · exact hneither (.inl h)
        · exact hneither (.inr h)
        · exact hnor (.inl h)
        · exact hnor (.inr h)
  · intro h
    cases h with
    | unknownOperator unknown =>
      rw [mem_operators] at unknown
      push Not at unknown
      obtain ⟨h1, h2, h3, h4⟩ := unknown
      simp [h1, h2, h3, h4]
    | withoutValues operator none => rw [if_pos operator, if_pos none]
    | withValues operator some =>
      have hneither : ¬ (r.operator = "In" ∨ r.operator = "NotIn") := by
        rcases operator with h | h <;> simp [h]
      rw [if_neg hneither, if_pos operator, if_neg some]

theorem check_eq_ok : r.check = .ok () ↔ r.IsSound := by
  constructor
  · intro h e hfault
    rw [check_eq_error.2 hfault] at h
    cases h
  · intro h
    cases hcheck : r.check with
    | ok _ => rfl
    | error e => exact absurd (check_eq_error.1 hcheck) (h e)

/-- **A sound requirement** has an operator that wants values and some, or one that wants none and none. -/
theorem isSound_iff : r.IsSound ↔
    (r.operator = "In" ∨ r.operator = "NotIn") ∧ r.valueList ≠ [] ∨
    (r.operator = "Exists" ∨ r.operator = "DoesNotExist") ∧ r.valueList = [] := by
  constructor
  · intro h
    by_cases hwants : r.operator = "In" ∨ r.operator = "NotIn"
    · exact .inl ⟨hwants, fun hnone => h _ (.withoutValues hwants hnone)⟩
    · by_cases hrefuses : r.operator = "Exists" ∨ r.operator = "DoesNotExist"
      · exact .inr ⟨hrefuses, by_contra fun hsome => h _ (.withValues hrefuses hsome)⟩
      · refine absurd (.unknownOperator ?_) (h (.invalidOperator r.operator))
        rw [mem_operators]
        tauto
  · rintro (⟨hwants, hsome⟩ | ⟨hrefuses, hnone⟩) e hfault
    · cases hfault with
      | unknownOperator unknown => exact unknown (mem_operators.2 (by tauto))
      | withoutValues _ none => exact hsome none
      | withValues operator _ => rcases hwants with h | h <;> simp [h] at operator
    · cases hfault with
      | unknownOperator unknown => exact unknown (mem_operators.2 (by tauto))
      | withoutValues operator _ => rcases hrefuses with h | h <;> simp [h] at operator
      | withValues _ some => exact some hnone

theorem holds_iff : r.holds labels = true ↔ r.Met labels := by
  unfold holds
  cases hvalue : labels.get? r.key with
  | none =>
    simp only [Bool.or_eq_true, decide_eq_true_eq]
    constructor
    · rintro (h | h)
      · exact .notIn h fun value _ => by simp [hvalue]
      · exact .absent h hvalue
    · rintro (⟨_, found, _⟩ | ⟨h, _⟩ | ⟨_, found⟩ | ⟨h, _⟩)
      · rw [hvalue] at found
        cases found
      · exact .inl h
      · rw [hvalue] at found
        cases found
      · exact .inr h
  | some value =>
    dsimp only
    constructor
    · intro h
      split at h
      · rename_i hin
        exact .isIn hin hvalue (List.contains_iff_mem.1 h)
      · split at h
        · rename_i hnotIn
          refine .notIn hnotIn fun listed hlisted heq => ?_
          rw [hvalue] at heq
          cases heq
          rw [Bool.not_eq_true', ← Bool.not_eq_true] at h
          exact h (List.contains_iff_mem.2 hlisted)
        · exact .present (of_decide_eq_true h) hvalue
    · rintro (⟨h, found, listed⟩ | ⟨h, unlisted⟩ | ⟨h, _⟩ | ⟨_, missing⟩)
      · rw [hvalue] at found
        cases found
        simpa [h] using listed
      · simpa [h] using fun hmem : value ∈ r.valueList => unlisted value hmem hvalue
      · simp [h]
      · rw [hvalue] at missing
        cases missing

theorem met_congr (h : labels.get? r.key = other.get? r.key) : r.Met labels ↔ r.Met other := by
  rw [← holds_iff, ← holds_iff]
  unfold holds
  rw [h]

/-! ### the same values -/

/-- Requirements are the same but for the order of the values and how often each stands there. -/
structure SameAs (r r' : Requirement) : Prop where
  key : r.key = r'.key
  operator : r.operator = r'.operator
  values : ∀ value, value ∈ r.valueList ↔ value ∈ r'.valueList

theorem SameAs.symm (h : r.SameAs r') : r'.SameAs r :=
  ⟨h.key.symm, h.operator.symm, fun value => (h.values value).symm⟩

theorem SameAs.valueList_eq_nil (h : r.SameAs r') : r.valueList = [] ↔ r'.valueList = [] := by
  rw [List.eq_nil_iff_forall_not_mem, List.eq_nil_iff_forall_not_mem]
  exact forall_congr' fun value => not_congr (h.values value)

theorem SameAs.isSound (h : r.SameAs r') (hr : r.IsSound) : r'.IsSound := by
  rw [isSound_iff, h.operator, ne_eq, h.valueList_eq_nil] at hr
  exact isSound_iff.2 hr

theorem SameAs.met (h : r.SameAs r') (hmet : r.Met labels) : r'.Met labels := by
  rcases hmet with ⟨operator, found, listed⟩ | ⟨operator, unlisted⟩ | ⟨operator, found⟩ |
    ⟨operator, missing⟩
  · exact .isIn (h.operator ▸ operator) (h.key ▸ found) ((h.values _).1 listed)
  · refine .notIn (h.operator ▸ operator) fun value hvalue => ?_
    rw [← h.key]
    exact unlisted value ((h.values value).2 hvalue)
  · exact .present (h.operator ▸ operator) (h.key ▸ found)
  · exact .absent (h.operator ▸ operator) (h.key ▸ missing)

/-! ### the opposite operator -/

/-- The operator that says the opposite. -/
def opposite (operator : String) : String :=
  if operator = "In" then "NotIn"
  else if operator = "NotIn" then "In"
  else if operator = "Exists" then "DoesNotExist"
  else if operator = "DoesNotExist" then "Exists"
  else operator

/-- The requirement with the opposite operator. -/
def exchanged (r : Requirement) : Requirement := { r with operator := opposite r.operator }

section Operators

theorem met_isIn (h : r.operator = "In") :
    r.Met labels ↔ ∃ value ∈ r.valueList, labels.get? r.key = some value := by
  constructor
  · rintro (⟨_, found, listed⟩ | ⟨h', _⟩ | ⟨h', _⟩ | ⟨h', _⟩)
    · exact ⟨_, listed, found⟩
    all_goals exact absurd (h.symm.trans h') (by decide)
  · rintro ⟨value, listed, found⟩
    exact .isIn h found listed

theorem met_notIn (h : r.operator = "NotIn") :
    r.Met labels ↔ ∀ value ∈ r.valueList, labels.get? r.key ≠ some value := by
  constructor
  · rintro (⟨h', _⟩ | ⟨_, unlisted⟩ | ⟨h', _⟩ | ⟨h', _⟩)
    · exact absurd (h.symm.trans h') (by decide)
    · exact unlisted
    all_goals exact absurd (h.symm.trans h') (by decide)
  · exact .notIn h

theorem met_present (h : r.operator = "Exists") :
    r.Met labels ↔ labels.get? r.key ≠ none := by
  rw [Option.ne_none_iff_exists']
  constructor
  · rintro (⟨h', _⟩ | ⟨h', _⟩ | ⟨_, found⟩ | ⟨h', _⟩)
    · exact absurd (h.symm.trans h') (by decide)
    · exact absurd (h.symm.trans h') (by decide)
    · exact ⟨_, found⟩
    · exact absurd (h.symm.trans h') (by decide)
  · rintro ⟨value, found⟩
    exact .present h found

theorem met_absent (h : r.operator = "DoesNotExist") :
    r.Met labels ↔ labels.get? r.key = none := by
  constructor
  · rintro (⟨h', _⟩ | ⟨h', _⟩ | ⟨h', _⟩ | ⟨_, missing⟩)
    · exact absurd (h.symm.trans h') (by decide)
    · exact absurd (h.symm.trans h') (by decide)
    · exact absurd (h.symm.trans h') (by decide)
    · exact missing
  · exact .absent h

end Operators

/-- The opposite operator wants values if the operator does, so a sound requirement stays sound. -/
theorem IsSound.exchanged (h : r.IsSound) : r.exchanged.IsSound := by
  refine isSound_iff.2 ((isSound_iff.1 h).imp (And.imp_left ?_) (And.imp_left ?_))
  · rintro (h | h)
    · exact .inr (congrArg opposite h)
    · exact .inl (congrArg opposite h)
  · rintro (h | h)
    · exact .inr (congrArg opposite h)
    · exact .inl (congrArg opposite h)

/-- **The opposite operator says the opposite**, of absent labels too. -/
theorem IsSound.met_exchanged (h : r.IsSound) : r.exchanged.Met labels ↔ ¬ r.Met labels := by
  have hopposite : ∀ operator, r.operator = operator → r.exchanged.operator = opposite operator :=
    fun _ h => congrArg opposite h
  obtain ⟨h | h, -⟩ | ⟨h | h, -⟩ := isSound_iff.1 h
  · rw [met_isIn h, met_notIn (hopposite _ h)]
    push Not
    rfl
  · rw [met_notIn h, met_isIn (hopposite _ h)]
    push Not
    rfl
  · rw [met_present h, met_absent (hopposite _ h), not_not]
    rfl
  · rw [met_absent h, met_present (hopposite _ h)]
    rfl

/-! ### label pairs -/

/-- A label pair as a requirement. -/
def ofPair (pair : String × String) : Requirement := ⟨pair.1, "In", some [pair.2]⟩

theorem isSound_ofPair (pair : String × String) : (ofPair pair).IsSound :=
  isSound_iff.2 (.inl ⟨.inl rfl, List.cons_ne_nil _ _⟩)

theorem met_ofPair (pair : String × String) :
    (ofPair pair).Met labels ↔ labels.get? pair.1 = some pair.2 := by
  rw [met_isIn rfl]
  show (∃ value ∈ [pair.2], labels.get? pair.1 = some value) ↔ _
  simp

end Requirement

/-! ## 2. Selectors -/

namespace LabelSelector

/-- Nothing is wrong with any requirement. -/
def IsSound (s : LabelSelector) : Prop := ∀ r ∈ s.requirements, r.IsSound

/-- **The first thing that is wrong with a selector.** -/
def FirstFault (s : LabelSelector) (e : SelectorError) : Prop :=
  ∃ earlier r later, s.requirements = earlier ++ r :: later ∧ (∀ r' ∈ earlier, r'.IsSound) ∧ r.Fault e

/-- **What a selector says of labels**: all that its label pairs and its requirements say. -/
structure Selected (s : LabelSelector) (labels : Labels) : Prop where
  pairs : ∀ pair ∈ s.pairs, labels.get? pair.1 = some pair.2
  requirements : ∀ r ∈ s.requirements, r.Met labels

/-- The keys of the labels that a selector says something of. -/
def mentioned (s : LabelSelector) : List String := s.pairs.map (·.1) ++ s.requirements.map (·.key)

/-- Some label pairs of a selector, or all of them, have become requirements behind the others. -/
def Respells (s t : LabelSelector) : Prop :=
  ∃ moved : List (String × String), t.requirements = s.requirements ++ moved.map Requirement.ofPair ∧
    ∀ pair, pair ∈ s.pairs ↔ pair ∈ t.pairs ∨ pair ∈ moved

/-- The label pairs are the same, and so are the requirements but for their order, the order of their values
and how often each of them stands there. -/
structure Rearranges (s t : LabelSelector) : Prop where
  pairs : ∀ pair, pair ∈ s.pairs ↔ pair ∈ t.pairs
  forth : ∀ r ∈ s.requirements, ∃ r' ∈ t.requirements, r.SameAs r'
  back : ∀ r' ∈ t.requirements, ∃ r ∈ s.requirements, r.SameAs r'

/-- A requirement is all there is. -/
structure Only (s : LabelSelector) (r : Requirement) : Prop where
  pairs : s.pairs = []
  requirements : s.requirements = [r]

variable {s t : LabelSelector} {labels other : Labels} {e : SelectorError}

theorem check_eq_error : s.check = .error e ↔ s.FirstFault e := by
  have hmap : s.check = .error e ↔ s.requirements.mapM Requirement.check = .error e := by
    unfold check
    rw [forM_eq_mapM, bind_eq_error]
    exact or_iff_left fun ⟨_, _, h⟩ => by cases h
  rw [hmap, mapM_eq_error]
  unfold FirstFault
  simp only [Requirement.check_eq_error, ← Requirement.check_eq_ok]
  constructor
  · rintro ⟨earlier, r, later, hsplit, hsound, hfault⟩
    exact ⟨earlier, r, later, hsplit, fun r' hr' => (hsound r' hr').choose_spec, hfault⟩
  · rintro ⟨earlier, r, later, hsplit, hsound, hfault⟩
    exact ⟨earlier, r, later, hsplit, fun r' hr' => ⟨(), hsound r' hr'⟩, hfault⟩

theorem exists_check_eq_error : (∃ e, s.check = .error e) ↔ ∃ r ∈ s.requirements, ∃ e, r.Fault e := by
  simp only [check_eq_error]
  constructor
  · rintro ⟨e, earlier, r, later, hsplit, -, hfault⟩
    exact ⟨r, by simp [hsplit], e, hfault⟩
  · rintro ⟨r, hr, e, hfault⟩
    have hmap : ∃ e, s.requirements.mapM Requirement.check = .error e :=
      exists_mapM_eq_error.2 ⟨r, hr, e, Requirement.check_eq_error.2 hfault⟩
    obtain ⟨e', h⟩ := hmap
    refine ⟨e', check_eq_error.1 ?_⟩
    unfold check
    rw [forM_eq_mapM, h]
    rfl

theorem check_eq_ok : s.check = .ok () ↔ s.IsSound := by
  constructor
  · intro h r hr e hfault
    obtain ⟨e', he⟩ := exists_check_eq_error.2 ⟨r, hr, e, hfault⟩
    rw [h] at he
    cases he
  · intro h
    cases hcheck : s.check with
    | ok _ => rfl
    | error e =>
      obtain ⟨r, hr, e', hfault⟩ := exists_check_eq_error.1 ⟨e, hcheck⟩
      exact absurd hfault (h r hr e')

theorem holds_iff : s.holds labels = true ↔ s.Selected labels := by
  unfold holds
  rw [Bool.and_eq_true, List.all_eq_true, List.all_eq_true]
  constructor
  · rintro ⟨hpairs, hrequirements⟩
    exact ⟨fun pair hm => of_decide_eq_true (hpairs pair hm),
      fun r hr => Requirement.holds_iff.1 (hrequirements r hr)⟩
  · rintro ⟨hpairs, hrequirements⟩
    exact ⟨fun pair hm => decide_eq_true (hpairs pair hm),
      fun r hr => Requirement.holds_iff.2 (hrequirements r hr)⟩

theorem selects_eq_error : s.selects labels = .error e ↔ s.check = .error e := by
  unfold selects
  rw [bind_eq_error]
  exact or_iff_left fun ⟨_, _, h⟩ => by cases h

theorem selects_of_isSound (h : s.IsSound) : s.selects labels = .ok (s.holds labels) := by
  unfold selects
  rw [check_eq_ok.2 h]
  rfl

theorem selects_congr (hs : s.IsSound) (ht : t.IsSound)
    (h : s.Selected labels ↔ t.Selected other) : s.selects labels = t.selects other := by
  rw [selects_of_isSound hs, selects_of_isSound ht]
  congr 1
  rw [Bool.eq_iff_iff, holds_iff, holds_iff, h]

/-! ### what does not matter -/

theorem selects_of_mentioned (h : ∀ key ∈ s.mentioned, labels.get? key = other.get? key) :
    s.selects labels = s.selects other := by
  have hpairs : ∀ pair ∈ s.pairs, labels.get? pair.1 = other.get? pair.1 := fun pair hm =>
    h _ (List.mem_append_left _ (List.mem_map_of_mem hm))
  have hrequirements : ∀ r ∈ s.requirements, labels.get? r.key = other.get? r.key := fun r hm =>
    h _ (List.mem_append_right _ (List.mem_map_of_mem hm))
  have hholds : s.holds labels = s.holds other := by
    rw [Bool.eq_iff_iff, holds_iff, holds_iff]
    constructor
    · rintro ⟨hp, hr⟩
      exact ⟨fun pair hm => hpairs pair hm ▸ hp pair hm,
        fun r hm => (Requirement.met_congr (hrequirements r hm)).1 (hr r hm)⟩
    · rintro ⟨hp, hr⟩
      exact ⟨fun pair hm => (hpairs pair hm).symm ▸ hp pair hm,
        fun r hm => (Requirement.met_congr (hrequirements r hm)).2 (hr r hm)⟩
  unfold selects
  rw [hholds]

/-- Label pairs are never wrong, so a selector and its respelling are wrong in the same way. -/
theorem Respells.check_eq (h : s.Respells t) : t.check = s.check := by
  obtain ⟨moved, hrequirements, -⟩ := h
  have hmoved : (moved.map Requirement.ofPair).mapM Requirement.check = .ok (moved.map fun _ => ()) := by
    rw [mapM_eq_ok, List.forall₂_map_left_iff, List.forall₂_map_right_iff, List.forall₂_same]
    exact fun pair _ => Requirement.check_eq_ok.2 (Requirement.isSound_ofPair pair)
  unfold check
  rw [hrequirements, forM_eq_mapM, forM_eq_mapM, List.mapM_append, hmoved]
  cases s.requirements.mapM Requirement.check <;> rfl

theorem Respells.selected (h : s.Respells t) : t.Selected labels ↔ s.Selected labels := by
  obtain ⟨moved, hrequirements, hpairs⟩ := h
  constructor
  · rintro ⟨hp, hr⟩
    rw [hrequirements, List.forall_mem_append] at hr
    refine ⟨fun pair hm => ?_, hr.1⟩
    rcases (hpairs pair).1 hm with hm | hm
    · exact hp pair hm
    · exact (Requirement.met_ofPair pair).1 (hr.2 _ (List.mem_map_of_mem hm))
  · rintro ⟨hp, hr⟩
    refine ⟨fun pair hm => hp pair ((hpairs pair).2 (.inl hm)), ?_⟩
    rw [hrequirements, List.forall_mem_append]
    refine ⟨hr, fun r hm => ?_⟩
    obtain ⟨pair, hmoved, rfl⟩ := List.mem_map.1 hm
    exact (Requirement.met_ofPair pair).2 (hp pair ((hpairs pair).2 (.inr hmoved)))

theorem Respells.selects_eq (h : s.Respells t) : t.selects labels = s.selects labels := by
  have hholds : t.holds labels = s.holds labels := by
    rw [Bool.eq_iff_iff, holds_iff, holds_iff, h.selected]
  unfold selects
  rw [h.check_eq, hholds]

theorem Rearranges.isSound (h : s.Rearranges t) (hs : s.IsSound) : t.IsSound := by
  intro r' hr'
  obtain ⟨r, hr, hsame⟩ := h.back r' hr'
  exact hsame.isSound (hs r hr)

theorem Rearranges.selected (h : s.Rearranges t) : t.Selected labels ↔ s.Selected labels := by
  constructor
  · rintro ⟨hp, hr⟩
    refine ⟨fun pair hm => hp pair ((h.pairs pair).1 hm), fun r hm => ?_⟩
    obtain ⟨r', hm', hsame⟩ := h.forth r hm
    exact hsame.symm.met (hr r' hm')
  · rintro ⟨hp, hr⟩
    refine ⟨fun pair hm => hp pair ((h.pairs pair).2 hm), fun r' hm' => ?_⟩
    obtain ⟨r, hm, hsame⟩ := h.back r' hm'
    exact hsame.met (hr r hm)

theorem Only.isSound_iff {r : Requirement} (h : s.Only r) : s.IsSound ↔ r.IsSound := by
  unfold IsSound
  rw [h.requirements, List.forall_mem_singleton]

theorem Only.selected_iff {r : Requirement} (h : s.Only r) : s.Selected labels ↔ r.Met labels := by
  constructor
  · intro hs
    exact hs.requirements r (by rw [h.requirements]; exact List.mem_singleton_self r)
  · intro hr
    refine ⟨fun pair hm => ?_, ?_⟩
    · rw [h.pairs] at hm
      cases hm
    · rw [h.requirements, List.forall_mem_singleton]
      exact hr

theorem selects_of_isEmpty (h : s.isEmpty = true) : s.selects labels = .ok true := by
  obtain ⟨hpairs, hrequirements⟩ := Bool.and_eq_true_iff.1 h
  rw [List.isEmpty_iff] at hpairs hrequirements
  have hsound : s.IsSound := fun r hr => by
    rw [hrequirements] at hr
    cases hr
  rw [selects_of_isSound hsound, holds_iff.2]
  refine ⟨fun pair hm => ?_, fun r hr => ?_⟩
  · rw [hpairs] at hm
    cases hm
  · rw [hrequirements] at hr
    cases hr

theorem effective?_of_isEmpty (h : s.isEmpty = true) : Webhook.effective? (some s) = none := by
  simp [Webhook.effective?, Option.filter, h]

theorem namespaceAccepts_of_isEmpty {hook : Webhook} (h : s.isEmpty = true)
    (hselector : hook.namespaceSelector = some s) (request : Request) (namespaces : NamespaceLister) :
    hook.namespaceAccepts request namespaces = .ok true := by
  unfold Webhook.namespaceAccepts
  rw [hselector, effective?_of_isEmpty h]
  exact ite_self _

theorem objectAccepts_of_isEmpty {hook : Webhook} (h : s.isEmpty = true)
    (hselector : hook.objectSelector = some s) (request : Request) :
    hook.objectAccepts request = .ok true := by
  unfold Webhook.objectAccepts
  rw [hselector, effective?_of_isEmpty h]

/-- **A selector says what its conditions say.**  It is wrong for some labels exactly if it is for all, namely
if a requirement is, and the first such requirement decides in which way.  Label pairs may be spelled out as
requirements, and labels that no condition names do not count.  A selector without conditions is passed over,
and that is what it would have said.  A selector that is right selects the labels of which all conditions hold;
the order of the requirements and of their values does not matter, nor how often they are repeated; and a
requirement that stands alone is turned into its negation by the opposite operator. -/
theorem selects_what_conditions_say (s : LabelSelector) :
    (∀ labels other, (∃ e, s.selects labels = .error e) ↔ ∃ e, s.selects other = .error e) ∧
    (∀ labels, (∃ e, s.selects labels = .error e) ↔ ∃ r ∈ s.requirements, ∃ e, r.Fault e) ∧
    (∀ labels e, s.selects labels = .error e ↔ s.FirstFault e) ∧
    (∀ t labels, s.Respells t → t.selects labels = s.selects labels) ∧
    (∀ labels other, (∀ key ∈ s.mentioned, labels.get? key = other.get? key) →
      s.selects labels = s.selects other) ∧
    (s.isEmpty = true → (∀ labels, s.selects labels = .ok true) ∧
      ∀ (hook : Webhook) (request : Request) (namespaces : NamespaceLister),
        (hook.namespaceSelector = some s → hook.namespaceAccepts request namespaces = .ok true) ∧
        (hook.objectSelector = some s → hook.objectAccepts request = .ok true)) ∧
    (s.IsSound →
      (∀ labels, ∃ b, s.selects labels = .ok b ∧ (b = true ↔ s.Selected labels)) ∧
      (∀ t labels, s.Rearranges t → t.selects labels = s.selects labels) ∧
      ∀ (r : Requirement) (t : LabelSelector) (labels : Labels), s.Only r → t.Only r.exchanged →
        ∃ b, s.selects labels = .ok b ∧ t.selects labels = .ok !b) := by
  have hwrong : ∀ labels : Labels, (∃ e, s.selects labels = .error e) ↔
      ∃ r ∈ s.requirements, ∃ e, r.Fault e := by
    intro labels
    simp only [selects_eq_error]
    exact exists_check_eq_error
  refine ⟨fun labels other => (hwrong labels).trans (hwrong other).symm, hwrong, fun labels e => ?_,
    fun t labels h => h.selects_eq, fun labels other h => selects_of_mentioned h, fun h => ?_, fun hs => ?_⟩
  · rw [selects_eq_error, check_eq_error]
  · exact ⟨fun _ => selects_of_isEmpty h, fun hook request namespaces =>
      ⟨fun hselector => namespaceAccepts_of_isEmpty h hselector request namespaces,
        fun hselector => objectAccepts_of_isEmpty h hselector request⟩⟩
  · refine ⟨fun labels => ⟨_, selects_of_isSound hs, holds_iff⟩, fun t labels h =>
      selects_congr (h.isSound hs) hs h.selected, fun r t labels honly hexchanged => ?_⟩
    have hr : r.IsSound := honly.isSound_iff.1 hs
    have ht : t.IsSound := hexchanged.isSound_iff.2 hr.exchanged
    refine ⟨_, selects_of_isSound hs, ?_⟩
    rw [selects_of_isSound ht]
    congr 1
    rw [Bool.eq_iff_iff, Bool.not_eq_true', ← Bool.not_eq_true, holds_iff, holds_iff,
      hexchanged.selected_iff, honly.selected_iff, hr.met_exchanged]

/-! ### web servers in one of two tiers -/

/-- Web servers that are in front or at the back and are not legacy ones. -/
def tiered : LabelSelector where
  matchLabels := some (.ofFields [("app", "web")])
  matchExpressions := some [⟨"tier", "In", some ["front", "back"]⟩, ⟨"legacy", "DoesNotExist", none⟩]

/-- The label pair spelled out. -/
def tieredSpelled : LabelSelector where
  matchExpressions := some [⟨"tier", "In", some ["front", "back"]⟩, ⟨"legacy", "DoesNotExist", none⟩,
    ⟨"app", "In", some ["web"]⟩]

/-- Another order, and a requirement that is there twice. -/
def tieredShuffled : LabelSelector where
  matchLabels := some (.ofFields [("app", "web")])
  matchExpressions := some [⟨"legacy", "DoesNotExist", some []⟩, ⟨"tier", "In", some ["back", "front"]⟩,
    ⟨"legacy", "DoesNotExist", none⟩]

/-- The labels of a web server at the back. -/
def backLabels : Labels := .ofFields [("app", "web"), ("tier", "back")]

theorem selects_what_conditions_say_tiered :
    tiered.IsSound ∧ tiered.Respells tieredSpelled ∧ tiered.Rearranges tieredShuffled ∧
      tieredSpelled.selects backLabels = .ok true ∧ tieredShuffled.selects backLabels = .ok true := by
  have hsound : tiered.IsSound := check_eq_ok.1 (by decide)
  have hspelled : tiered.Respells tieredSpelled := ⟨[("app", "web")], rfl, fun pair => by
    show pair ∈ [("app", "web")] ↔ pair ∈ [] ∨ pair ∈ [("app", "web")]
    simp⟩
  have hlegacy : Requirement.SameAs ⟨"legacy", "DoesNotExist", none⟩ ⟨"legacy", "DoesNotExist", some []⟩ :=
    ⟨rfl, rfl, fun _ => Iff.rfl⟩
  have htier : Requirement.SameAs ⟨"tier", "In", some ["front", "back"]⟩
      ⟨"tier", "In", some ["back", "front"]⟩ := ⟨rfl, rfl, fun value => by
    show value ∈ ["front", "back"] ↔ value ∈ ["back", "front"]
    simp [or_comm]⟩
  have hshuffled : tiered.Rearranges tieredShuffled := by
    refine ⟨fun _ => Iff.rfl, ?_, ?_⟩
    · rintro r hr
      simp only [tiered, requirements, Option.getD_some, List.mem_cons, List.not_mem_nil, or_false] at hr
      rcases hr with rfl | rfl
      · exact ⟨_, by simp [tieredShuffled, requirements], htier⟩
      · exact ⟨_, by simp [tieredShuffled, requirements], hlegacy⟩
    · rintro r hr
      simp only [tieredShuffled, requirements, Option.getD_some, List.mem_cons, List.not_mem_nil,
        or_false] at hr
      rcases hr with rfl | rfl | rfl
      · exact ⟨_, by simp [tiered, requirements], hlegacy⟩
      · exact ⟨_, by simp [tiered, requirements], htier⟩
      · exact ⟨_, by simp [tiered, requirements], ⟨rfl, rfl, fun _ => Iff.rfl⟩⟩
  have hself : tiered.selects backLabels = .ok true := by decide
  obtain ⟨-, -, -, hrespelled, -, -, hsaid⟩ := selects_what_conditions_say tiered
  refine ⟨hsound, hspelled, hshuffled, ?_, ?_⟩
  · rw [hrespelled _ _ hspelled, hself]
  · rw [(hsaid hsound).2.1 _ _ hshuffled, hself]

end LabelSelector

end Admission
