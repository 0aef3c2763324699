import Mathlib.Data.List.Forall2
import Admission.Json.Diff
import Admission.Proofs.Json.Place
import Admission.Proofs.Json.Proper

/-!
# What a diff says and does

* `diff_eq_nil_iff` : there is nothing between two values exactly if they are the same.
* `becomes_obj`, `becomes_arr` : applied to a third value, the diff of two makes of each of its parts
  what the diff of their parts there makes of it.
* `Proper.becomes` : applied to the old value, it makes of it one that is the same as the new one.

All need the keys of objects in order.  The diff of a part is a patch of the whole: a `Place` is a path
together with the document around it, and `Becomes` says what the diff at such a path makes of the value
that stands there.
-/

namespace Admission

namespace Json

/-! ## 1. values that are the same -/

/-- How `same` compares doubles. -/
abbrev sameNumber (x y : UInt64) : Bool := Float.ofBits x == Float.ofBits y

theorem same_arr (a b : List Json) : (arr a).same (arr b) = agreeItems sameNumber a b := rfl

theorem same_obj (a b : List (String × Json)) :
    (obj a).same (obj b) = agreeFields sameNumber a b := rfl

section Agree

variable {f : UInt64 → UInt64 → Bool}

theorem rel_of_agreeFields {a b : List (String × Json)} (h : agreeFields f a b = true)
    (key : String) : Option.Rel (fun x y => agree f x y = true) (Fields.get? key a)
      (Fields.get? key b) := by
  induction a generalizing b with
  | nil =>
    cases b with
    | nil => exact .none
    | cons pair rest => cases h
  | cons pair rest ih =>
    obtain ⟨k, v⟩ := pair
    cases b with
    | nil => cases h
    | cons pair' rest' =>
      obtain ⟨k', v'⟩ := pair'
      rw [agreeFields, Bool.and_eq_true, Bool.and_eq_true, beq_iff_eq] at h
      obtain ⟨⟨rfl, hv⟩, hrest⟩ := h
      unfold Fields.get?
      split
      · exact .some hv
      · exact ih hrest

/-- **Objects with their keys in order agree if what is under each key does.** -/
theorem agreeFields_iff {a b : List (String × Json)} (ha : Fields.Sorted a) (hb : Fields.Sorted b) :
    agreeFields f a b = true ↔ ∀ key, Option.Rel (fun x y => agree f x y = true)
      (Fields.get? key a) (Fields.get? key b) := by
  refine ⟨rel_of_agreeFields, fun h => ?_⟩
  induction a generalizing b with
  | nil =>
    cases b with
    | nil => rfl
    | cons pair rest =>
      have hkey := h pair.1
      rw [hb.get?_of_mem List.mem_cons_self] at hkey
      cases hkey
  | cons pair rest ih =>
    obtain ⟨k, v⟩ := pair
    cases b with
    | nil =>
      have hkey := h k
      rw [ha.get?_of_mem List.mem_cons_self] at hkey
      cases hkey
    | cons pair' rest' =>
      obtain ⟨k', v'⟩ := pair'
      have hfirst : k = k' := by
        rcases Decidable.em (k < k') with hlt | hge
        · have hkey := h k
          rw [ha.get?_of_mem List.mem_cons_self, hb.get?_of_lt hlt] at hkey
          cases hkey
        · rcases Decidable.em (k' < k) with hlt | hge'
          · have hkey := h k'
            rw [ha.get?_of_lt hlt, hb.get?_of_mem List.mem_cons_self] at hkey
            cases hkey
          · exact String.le_antisymm (String.not_lt.1 hge') (String.not_lt.1 hge)
      subst hfirst
      obtain ⟨hhead, hrest⟩ := List.pairwise_cons.1 ha
      obtain ⟨hhead', hrest'⟩ := List.pairwise_cons.1 hb
      have hv : agree f v v' = true := by
        have hkey := h k
        rw [ha.get?_of_mem List.mem_cons_self, hb.get?_of_mem List.mem_cons_self] at hkey
        cases hkey
        assumption
      have hothers : agreeFields f rest rest' = true := by
        refine ih hrest hrest' fun key => ?_
        rcases Decidable.em (k = key) with rfl | hne
        · rw [Fields.Sorted.get?_of_below hhead, Fields.Sorted.get?_of_below hhead']
          exact .none
        · have hkey := h key
          simpa [Fields.get?, hne] using hkey
      rw [agreeFields, hv, hothers, beq_self_eq_true]
      rfl

end Agree

/-! ## 2. a diff without operations -/

theorem removals_eq_nil_iff {path : Pointer} {new old : List (String × Json)} :
    removals path new old = [] ↔ ∀ pair ∈ old, (Fields.get? pair.1 new).isSome = true := by
  rw [removals, List.map_eq_nil_iff, List.filter_eq_nil_iff]
  simp [Option.isSome_iff_ne_none]

/-- Pairs that were added or changed, and pairs that are gone, are all that objects differ in. -/
theorem same_obj_iff {old new : List (String × Json)} (ho : Fields.Sorted old)
    (hn : Fields.Sorted new) :
    (obj old).same (obj new) = true ↔
      (∀ pair ∈ new, ∃ before, Fields.get? pair.1 old = some before ∧
        before.same pair.2 = true) ∧
      ∀ pair ∈ old, (Fields.get? pair.1 new).isSome = true := by
  rw [same_obj, agreeFields_iff ho hn]
  constructor
  · intro h
    refine ⟨fun pair hm => ?_, fun pair hm => ?_⟩
    · have hkey := h pair.1
      rw [hn.get?_of_mem hm] at hkey
      cases hget : Fields.get? pair.1 old with
      | none =>
        rw [hget] at hkey
        cases hkey
      | some before =>
        rw [hget] at hkey
        cases hkey
        exact ⟨before, rfl, ‹_›⟩
    · have hkey := h pair.1
      rw [ho.get?_of_mem hm] at hkey
      cases hget : Fields.get? pair.1 new with
      | none =>
        rw [hget] at hkey
        cases hkey
      | some after => rfl
  · rintro ⟨hnew, hold⟩ key
    cases hget : Fields.get? key new with
    | some after =>
      obtain ⟨before, hbefore, hsame⟩ := hnew _ (Fields.mem_of_get? hget)
      rw [hbefore]
      exact .some hsame
    | none =>
      cases hget' : Fields.get? key old with
      | none => exact .none
      | some before =>
        have hsome := hold _ (Fields.mem_of_get? hget')
        rw [hget] at hsome
        cases hsome

section Leaf

variable {path : Pointer} {old new : Json} (hfields : ∀ fields, new ≠ obj fields)
  (hitems : ∀ items, new ≠ arr items)

include hfields hitems

theorem diffAt_leaf :
    diffAt path old new = if old.same new then [] else [.replace path new] := by
  rw [diffAt]
  · exact hfields
  · exact hitems

theorem leaf_eq_nil_iff : diffAt path old new = [] ↔ old.same new = true := by
  rw [diffAt_leaf hfields hitems]
  split <;> simp [*]

end Leaf

mutual

theorem diffAt_eq_nil_iff {path : Pointer} {old : Json} (ho : old.Proper) :
    ∀ {new : Json}, new.Proper → (diffAt path old new = [] ↔ old.same new = true)
  | .null, _ => leaf_eq_nil_iff nofun nofun
  | .bool _, _ => leaf_eq_nil_iff nofun nofun
  | .int _, _ => leaf_eq_nil_iff nofun nofun
  | .double _, _ => leaf_eq_nil_iff nofun nofun
  | .str _, _ => leaf_eq_nil_iff nofun nofun
  | .arr new, .arr hn => by
    cases old with
    | arr old =>
      rw [diffAt, same_arr]
      exact diffItems_eq_nil_iff (keeps_arr_iff.1 ho) hn
    | _ => simp [diffAt, same, agree]
  | .obj new, .obj hkeys hn => by
    cases old with
    | obj old =>
      obtain ⟨hsorted, hold⟩ := keeps_obj_iff.1 ho
      rw [diffAt, List.append_eq_nil_iff, removals_eq_nil_iff, same_obj_iff hsorted hkeys,
        diffFields_eq_nil_iff hold hn]
    | _ => simp [diffAt, same, agree]

theorem diffFields_eq_nil_iff {path : Pointer} {old : List (String × Json)}
    (ho : ∀ pair ∈ old, pair.2.Proper) :
    ∀ {new : List (String × Json)}, (∀ pair ∈ new, pair.2.Proper) →
      (diffFields path old new = [] ↔ ∀ pair ∈ new, ∃ before,
        Fields.get? pair.1 old = some before ∧ before.same pair.2 = true)
  | [], _ => by simp [diffFields]
  | (key, value) :: rest, hn => by
    have hrest : diffFields path old rest = [] ↔ _ := diffFields_eq_nil_iff ho
      fun pair hm => hn pair (List.mem_cons_of_mem _ hm)
    rw [diffFields, List.append_eq_nil_iff, hrest, List.forall_mem_cons]
    refine and_congr ?_ Iff.rfl
    cases hget : Fields.get? key old with
    | none => simp
    | some before =>
      have hvalue : diffAt (path ++ [key]) before value = [] ↔ _ := diffAt_eq_nil_iff
        (ho _ (Fields.mem_of_get? hget)) (hn (key, value) List.mem_cons_self)
      simpa using hvalue

theorem diffItems_eq_nil_iff {path : Pointer} {position : Nat} {old : List Json}
    (ho : ∀ item ∈ old, item.Proper) :
    ∀ {new : List Json}, (∀ item ∈ new, item.Proper) →
      (diffItems path position old new = [] ↔ agreeItems sameNumber old new = true)
  | [], _ => by
    cases old with
    | nil => simp [diffItems, agreeItems]
    | cons before others => simp [diffItems, agreeItems]
  | value :: rest, hn => by
    cases old with
    | nil => simp [diffItems, agreeItems]
    | cons before others =>
      have hvalue : diffAt (path ++ [toString position]) before value = [] ↔ _ :=
        diffAt_eq_nil_iff (ho before List.mem_cons_self) (hn value List.mem_cons_self)
      have hrest : diffItems path (position + 1) others rest = [] ↔ _ := diffItems_eq_nil_iff
        (fun item hm => ho item (List.mem_cons_of_mem _ hm))
        (fun item hm => hn item (List.mem_cons_of_mem _ hm))
      rw [diffItems, List.append_eq_nil_iff, agreeItems, Bool.and_eq_true]
      exact and_congr hvalue hrest

end

/-- **There is nothing between two values exactly if they are the same.** -/
theorem diff_eq_nil_iff {old new : Json} (ho : old.Proper) (hn : new.Proper) :
    diff old new = [] ↔ old.same new = true :=
  diffAt_eq_nil_iff ho hn

/-! ## 3. what a diff makes of an object -/

open Patch (Takes)

/-- **The diff of two values makes of a third one a fourth**, wherever that stands. -/
def Becomes (old new start result : Json) : Prop :=
  ∀ {path : Pointer} {around : Json → Json}, Place path around →
    Takes (diffAt path old new) (around start) (around result)

/-- What the diff of two objects makes of the value under a key of a third one. -/
inductive FieldBecomes : (old new start result : Option Json) → Prop
  | kept (start : Option Json) : FieldBecomes none none start start
  | added (new : Json) (start : Option Json) : FieldBecomes none (some new) start (some new)
  | removed (old start : Json) : FieldBecomes (some old) none (some start) none
  | changed {old new start result : Json} (h : Becomes old new start result) :
      FieldBecomes (some old) (some new) (some start) (some result)
  /-- Nothing is done, so nothing need be there. -/
  | unchanged {old new : Json} (h : ∀ path, diffAt path old new = []) (start : Option Json) :
      FieldBecomes (some old) (some new) start start

theorem fieldBecomes_self {value? : Option Json} (h : ∀ value ∈ value?, value.Proper)
    (start : Option Json) : FieldBecomes value? value? start start := by
  cases value? with
  | none => exact .kept start
  | some value =>
    have hv : value.Proper := h value rfl
    exact .unchanged (fun _ => (diffAt_eq_nil_iff hv hv).2 hv.same_refl) start

section Object

variable {path : Pointer} {around : Json → Json} {old new start : List (String × Json)}

theorem diffFields_cons (path : Pointer) (old : List (String × Json)) (pair : String × Json)
    (rest : List (String × Json)) :
    diffFields path old (pair :: rest) = diffFields path old [pair] ++ diffFields path old rest := by
  simp only [diffFields, List.append_nil]

theorem takes_diffFields_singleton {key : String} {value : Json} {first : Option Json}
    (hs : Fields.Sorted start)
    (h : FieldBecomes (Fields.get? key old) (some value) (Fields.get? key start) first) :
    ∃ result, (∀ {path around}, Place path around →
        Takes (diffFields path old [(key, value)]) (around (obj start)) (around (obj result))) ∧
      Fields.Sorted result ∧
      ∀ k, Fields.get? k result = if k = key then first else Fields.get? k start := by
  simp only [diffFields, List.append_nil]
  generalize Fields.get? key old = before at h ⊢
  generalize hnow : Fields.get? key start = now at h
  cases h with
  | added =>
    exact ⟨_, fun hp => hp.takes_add_key key value start, hs.insert key value,
      fun k => Fields.get?_insert key value start k⟩
  | @changed _ _ _ first hbecomes =>
    refine ⟨_, fun {path around} hp => ?_, hs.insert key first,
      fun k => Fields.get?_insert key first start k⟩
    have hplace := hbecomes (hp.key hs key)
    rw [hs.insert_self hnow] at hplace
    exact hplace
  | unchanged hnil =>
    refine ⟨start, fun {path around} _ => ?_, hs, fun k => ?_⟩
    · dsimp only
      rw [hnil]
      exact .nil _
    · split
      · rename_i heq
        rw [heq, hnow]
      · rfl

theorem takes_diffFields {after : String → Option Json} (hn : Fields.Sorted new)
    (hs : Fields.Sorted start)
    (h : ∀ pair ∈ new, FieldBecomes (Fields.get? pair.1 old) (some pair.2)
      (Fields.get? pair.1 start) (after pair.1)) :
    ∃ result, (∀ {path around}, Place path around →
        Takes (diffFields path old new) (around (obj start)) (around (obj result))) ∧
      Fields.Sorted result ∧ ∀ key, Fields.get? key result =
        if (Fields.get? key new).isSome = true then after key else Fields.get? key start := by
  induction new generalizing start with
  | nil => exact ⟨start, fun _ => .nil _, hs, fun _ => rfl⟩
  | cons pair rest ih =>
    obtain ⟨key, value⟩ := pair
    obtain ⟨hbelow, hrest⟩ := List.pairwise_cons.1 hn
    obtain ⟨middle, hfirst, hmsorted, hmview⟩ :=
      takes_diffFields_singleton hs (h (key, value) List.mem_cons_self)
    have hother : ∀ pair ∈ rest, pair.1 ≠ key := fun pair hm heq =>
      String.lt_irrefl _ (heq ▸ hbelow pair hm)
    obtain ⟨result, hresult, hsorted, hview⟩ := ih hrest hmsorted fun pair hm => by
      rw [hmview, if_neg (hother pair hm)]
      exact h pair (List.mem_cons_of_mem _ hm)
    refine ⟨result, fun hp => ?_, hsorted, fun k => ?_⟩
    · rw [diffFields_cons]
      exact (hfirst hp).append (hresult hp)
    · rw [hview, hmview, Fields.get?]
      rcases Decidable.em (key = k) with rfl | hne
      · rw [Fields.Sorted.get?_of_below hbelow]
        simp
      · rw [if_neg hne, if_neg (Ne.symm hne)]

theorem takes_removes (h : Place path around) {gone : List (String × Json)}
    (hg : Fields.Sorted gone)
    (hkeys : ∀ pair ∈ gone, (Fields.get? pair.1 start).isSome = true) :
    Takes (gone.map fun pair => .remove (path ++ [pair.1])) (around (obj start))
      (around (obj (gone.foldl (fun fields pair => Fields.erase pair.1 fields) start))) := by
  induction gone generalizing start with
  | nil => exact .nil _
  | cons pair rest ih =>
    obtain ⟨hhead, hrest⟩ := List.pairwise_cons.1 hg
    have hfirst := h.takes_remove_key (hkeys pair List.mem_cons_self)
    refine hfirst.append (ih hrest fun other hm => ?_)
    have hne : other.1 ≠ pair.1 := fun heq => String.lt_irrefl _ (heq ▸ hhead other hm)
    rw [Fields.get?_erase, if_neg hne]
    exact hkeys other (List.mem_cons_of_mem _ hm)

theorem get?_foldl_erase (key : String) (gone fields : List (String × Json)) :
    Fields.get? key (gone.foldl (fun fields pair => Fields.erase pair.1 fields) fields) =
      if (Fields.get? key gone).isSome then none else Fields.get? key fields := by
  induction gone generalizing fields with
  | nil => rfl
  | cons pair rest ih =>
    rw [List.foldl_cons, ih, Fields.get?_erase, Fields.get?]
    by_cases hk : pair.1 = key
    · simp [hk]
    · simp [hk, Ne.symm hk]

theorem sorted_foldl_erase (gone : List (String × Json)) {fields : List (String × Json)}
    (h : Fields.Sorted fields) :
    Fields.Sorted (gone.foldl (fun fields pair => Fields.erase pair.1 fields) fields) := by
  induction gone generalizing fields with
  | nil => exact h
  | cons pair rest ih => exact ih (h.erase pair.1)

theorem takes_removals (ho : Fields.Sorted old)
    (hthere : ∀ pair ∈ old, Fields.get? pair.1 new = none →
      (Fields.get? pair.1 start).isSome = true) (hs : Fields.Sorted start) :
    ∃ result, (∀ {path around}, Place path around →
        Takes (removals path new old) (around (obj start)) (around (obj result))) ∧
      Fields.Sorted result ∧ ∀ key, Fields.get? key result =
        if Fields.get? key new = none ∧ (Fields.get? key old).isSome = true then none
        else Fields.get? key start := by
  let gone := old.filter fun pair => (Fields.get? pair.1 new).isNone
  have hgone : Fields.Sorted gone := List.Pairwise.filter _ ho
  have hkeys : ∀ pair ∈ gone, (Fields.get? pair.1 start).isSome = true := fun pair hp => by
    obtain ⟨hm, hnone⟩ := List.mem_filter.1 hp
    exact hthere pair hm (Option.isNone_iff_eq_none.1 hnone)
  refine ⟨_, fun h => takes_removes h hgone hkeys, sorted_foldl_erase gone hs, fun key => ?_⟩
  have hiff : (Fields.get? key gone).isSome = true ↔
      Fields.get? key new = none ∧ (Fields.get? key old).isSome = true := by
    constructor
    · intro hsome
      obtain ⟨value, hvalue⟩ := Option.isSome_iff_exists.1 hsome
      obtain ⟨hm, hnone⟩ := List.mem_filter.1 (Fields.mem_of_get? hvalue)
      exact ⟨Option.isNone_iff_eq_none.1 hnone, by rw [ho.get?_of_mem hm]; rfl⟩
    · rintro ⟨hnone, hsome⟩
      obtain ⟨value, hvalue⟩ := Option.isSome_iff_exists.1 hsome
      have hm : (key, value) ∈ gone :=
        List.mem_filter.2 ⟨Fields.mem_of_get? hvalue, Option.isNone_iff_eq_none.2 hnone⟩
      rw [hgone.get?_of_mem hm]
      rfl
  rw [get?_foldl_erase]
  by_cases hkey : (Fields.get? key gone).isSome = true
  · rw [if_pos hkey, if_pos (hiff.1 hkey)]
  · rw [if_neg hkey, if_neg fun h => hkey (hiff.2 h)]

/-- **What the diff of two objects makes of a third one** is made under each key by itself. -/
theorem becomes_obj (good : String → Option Json → Prop) (ho : Fields.Sorted old)
    (hn : Fields.Sorted new) (hs : Fields.Sorted start)
    (h : ∀ key, ∃ after, FieldBecomes (Fields.get? key old) (Fields.get? key new)
      (Fields.get? key start) after ∧ good key after) :
    ∃ result, Becomes (obj old) (obj new) (obj start) (obj result) ∧ Fields.Sorted result ∧
      ∀ key, good key (Fields.get? key result) := by
  obtain ⟨after, h⟩ := Classical.skolem.1 h
  have hafter := fun key => (h key).1
  obtain ⟨middle, hmiddle, hmsorted, hmview⟩ := takes_diffFields hn hs fun pair hm => by
    have hkey := hafter pair.1
    rw [hn.get?_of_mem hm] at hkey
    exact hkey
  have hthere : ∀ pair ∈ old, Fields.get? pair.1 new = none →
      (Fields.get? pair.1 middle).isSome = true := fun pair hm hnone => by
    have hkey := hafter pair.1
    rw [ho.get?_of_mem hm, hnone] at hkey
    rw [hmview, hnone]
    generalize Fields.get? pair.1 start = now at hkey ⊢
    generalize after pair.1 = result at hkey ⊢
    cases hkey
    rfl
  obtain ⟨result, hresult, hrsorted, hview⟩ := takes_removals ho hthere hmsorted
  refine ⟨result, fun hp => ?_, hrsorted, fun key => ?_⟩
  · rw [diffAt]
    exact (hmiddle hp).append (hresult hp)
  · suffices heq : Fields.get? key result = after key by
      rw [heq]
      exact (h key).2
    have hkey := hafter key
    rw [hview, hmview]
    generalize Fields.get? key old = before at hkey ⊢
    generalize Fields.get? key new = value at hkey ⊢
    generalize Fields.get? key start = now at hkey ⊢
    generalize after key = result at hkey ⊢
    cases hkey <;> rfl

end Object

/-! ## 4. what a diff makes of an array -/

section Items

variable {path : Pointer} {around : Json → Json}

theorem takes_trim (h : Place path around) (done : List Json) (old start : List Json)
    (hlength : old.length = start.length) :
    Takes (old.map fun _ => .remove (path ++ [toString done.length]))
      (around (arr (done ++ start))) (around (arr done)) := by
  induction old generalizing start with
  | nil =>
    rw [List.eq_nil_of_length_eq_zero hlength.symm, List.append_nil]
    exact .nil _
  | cons item rest ih =>
    cases start with
    | nil => cases hlength
    | cons now others =>
      exact (h.takes_remove_item done now others).append (ih others (Nat.succ.inj hlength))

theorem diffItems_cons (position : Nat) (old : List Json) (value : Json) (rest : List Json) :
    diffItems path position old (value :: rest) =
      (match old with
        | before :: _ => diffAt (path ++ [toString position]) before value
        | [] => [.add (path ++ [toString position]) value]) ++
        diffItems path (position + 1) old.tail rest := by
  cases old <;> rw [diffItems]

theorem takes_diffItems {good : Json → Json → Prop} {old new start : List Json}
    (hadded : ∀ item ∈ new, good item item)
    (h : List.Forall₂ (fun before now => ∀ item ∈ new, ∃ after, Becomes before item now after ∧
      good after item) old start) :
    ∃ items, (∀ (done : List Json) {path around}, Place path around →
      Takes (diffItems path done.length old new) (around (arr (done ++ start)))
        (around (arr (done ++ items)))) ∧ List.Forall₂ good items new := by
  induction new generalizing old start with
  | nil =>
    refine ⟨[], fun done _ _ hp => ?_, .nil⟩
    rw [diffItems, List.append_nil]
    exact takes_trim hp done old start h.length_eq
  | cons value rest ih =>
    -- the first item becomes what the new one says
    obtain ⟨first, hfirst, hgood⟩ : ∃ first, (∀ (done : List Json) {path around},
        Place path around → Takes
          (match old with
            | before :: _ => diffAt (path ++ [toString done.length]) before value
            | [] => [.add (path ++ [toString done.length]) value])
          (around (arr (done ++ start))) (around (arr (done ++ first :: start.tail)))) ∧
        good first value := by
      cases h with
      | nil =>
        refine ⟨value, fun done _ _ hp => ?_, hadded value List.mem_cons_self⟩
        rw [List.append_nil]
        exact hp.takes_add_item value done
      | @cons before now _ others hhead _ =>
        obtain ⟨after, hafter, hgood⟩ := hhead value List.mem_cons_self
        exact ⟨after, fun done _ _ hp => hafter (hp.item done others), hgood⟩
    have htail : List.Forall₂ (fun before now => ∀ item ∈ rest, ∃ after,
        Becomes before item now after ∧ good after item) old.tail start.tail := by
      cases h with
      | nil => exact .nil
      | cons _ hrest =>
        exact hrest.imp fun _ _ hb item hm => hb item (List.mem_cons_of_mem _ hm)
    obtain ⟨items, hitems, hgoods⟩ :=
      ih (fun item hm => hadded item (List.mem_cons_of_mem _ hm)) htail
    refine ⟨first :: items, fun done path around hp => ?_, .cons hgood hgoods⟩
    have hrest := hitems (done ++ [first]) hp
    rw [List.length_append, List.length_singleton, List.append_assoc, List.append_assoc,
      List.singleton_append, List.singleton_append] at hrest
    rw [diffItems_cons]
    exact (hfirst done hp).append hrest

/-- **What the diff of two arrays makes of a third one**, as long as the old one: each item that was
there becomes what the new one at its place says, and the others are added. -/
theorem becomes_arr (good : Json → Json → Prop) {old new start : List Json}
    (hadded : ∀ item ∈ new, good item item)
    (h : List.Forall₂ (fun before now => ∀ item ∈ new, ∃ after, Becomes before item now after ∧
      good after item) old start) :
    ∃ result, Becomes (arr old) (arr new) (arr start) (arr result) ∧
      List.Forall₂ good result new := by
  obtain ⟨items, hitems, hgood⟩ := takes_diffItems hadded h
  refine ⟨items, fun hp => ?_, hgood⟩
  rw [diffAt]
  exact hitems [] hp

end Items

/-! ## 5. what a diff makes of the old value -/

theorem becomes_leaf (old new start : Json) (hfields : ∀ fields, new ≠ obj fields)
    (hitems : ∀ items, new ≠ arr items) :
    Becomes old new start (if old.same new then start else new) := by
  intro path around hp
  rw [diffAt_leaf hfields hitems]
  split
  · exact .nil _
  · exact hp.takes_replace start new

theorem exists_becomes_leaf {old new : Json} (hfields : ∀ fields, new ≠ obj fields)
    (hitems : ∀ items, new ≠ arr items) (hn : new.Proper) :
    ∃ after, Becomes old new old after ∧ after.same new = true := by
  refine ⟨_, becomes_leaf old new old hfields hitems, ?_⟩
  split
  · assumption
  · exact hn.same_refl

theorem agreeItems_of_forall₂ {a b : List Json}
    (h : List.Forall₂ (fun x y => x.same y = true) a b) : agreeItems sameNumber a b = true := by
  induction h with
  | nil => rfl
  | cons hhead _ ih =>
    rw [same] at hhead
    rw [agreeItems, hhead, ih]
    rfl

mutual

/-- **The diff makes of the old value one that is the same as the new one.** -/
theorem Proper.becomes : ∀ {new : Json}, new.Proper → ∀ {old : Json}, old.Proper →
    ∃ after, Becomes old new old after ∧ after.same new = true
  | .null, hn, _, _ => exists_becomes_leaf nofun nofun hn
  | .bool _, hn, _, _ => exists_becomes_leaf nofun nofun hn
  | .int _, hn, _, _ => exists_becomes_leaf nofun nofun hn
  | .double _, hn, _, _ => exists_becomes_leaf nofun nofun hn
  | .str _, hn, _, _ => exists_becomes_leaf nofun nofun hn
  | .arr new, hn, old, ho => by
    have hnew := keeps_arr_iff.1 hn
    cases old with
    | arr old =>
      have hold := keeps_arr_iff.1 ho
      obtain ⟨items, hitems, hsame⟩ := becomes_arr (fun after item => after.same item = true)
        (fun item hm => Proper.same_refl (hnew item hm))
        (List.forall₂_same.2 fun before hb item hm =>
          Proper.becomes_item hnew item hm (hold before hb))
      exact ⟨.arr items, hitems, agreeItems_of_forall₂ hsame⟩
    | _ => exact ⟨.arr new, fun h => h.takes_replace _ _, hn.same_refl⟩
  | .obj new, hn, old, ho => by
    obtain ⟨hkeys, hnew⟩ := keeps_obj_iff.1 hn
    cases old with
    | obj old =>
      obtain ⟨hsorted, hold⟩ := keeps_obj_iff.1 ho
      obtain ⟨result, hresult, hrsorted, hview⟩ := becomes_obj
        (fun key after => Option.Rel (fun x y => x.same y = true) after (Fields.get? key new))
        hsorted hkeys hsorted fun key => Proper.becomes_field hnew key hold
      exact ⟨.obj result, hresult, (agreeFields_iff hrsorted hkeys).2 hview⟩
    | _ => exact ⟨.obj new, fun h => h.takes_replace _ _, hn.same_refl⟩
termination_by structural new => new

theorem Proper.becomes_field : ∀ {new : List (String × Json)}, (∀ pair ∈ new, pair.2.Proper) →
    ∀ (key : String) {old : List (String × Json)}, (∀ pair ∈ old, pair.2.Proper) →
      ∃ after, FieldBecomes (Fields.get? key old) (Fields.get? key new) (Fields.get? key old) after ∧
        Option.Rel (fun x y => x.same y = true) after (Fields.get? key new)
  | [], _, key, old, _ => by
    rw [Fields.get?_nil]
    cases Fields.get? key old with
    | none => exact ⟨none, .kept none, .none⟩
    | some before => exact ⟨none, .removed before before, .none⟩
  | (k, value) :: rest, hn, key, old, ho => by
    rcases Decidable.em (k = key) with rfl | hne
    · have hvalue : value.Proper := hn (k, value) List.mem_cons_self
      rw [Fields.get?, if_pos rfl]
      cases hget : Fields.get? k old with
      | none => exact ⟨some value, .added value none, .some hvalue.same_refl⟩
      | some before =>
        obtain ⟨after, hafter, hsame⟩ := Proper.becomes hvalue (ho _ (Fields.mem_of_get? hget))
        exact ⟨some after, .changed hafter, .some hsame⟩
    · rw [Fields.get?, if_neg hne]
      exact Proper.becomes_field (fun p hp => hn p (List.mem_cons_of_mem _ hp)) key ho
termination_by structural new => new

theorem Proper.becomes_item : ∀ {new : List Json}, (∀ item ∈ new, item.Proper) →
    ∀ item ∈ new, ∀ {old : Json}, old.Proper →
      ∃ after, Becomes old item old after ∧ after.same item = true
  | [], _, _, hm, _, _ => by cases hm
  | value :: rest, hn, item, hm, _, ho => by
    have hvalue : value.Proper := hn value List.mem_cons_self
    rcases List.mem_cons.1 hm with heq | hm
    · rw [heq]
      exact Proper.becomes hvalue ho
    · exact Proper.becomes_item (fun p hp => hn p (List.mem_cons_of_mem _ hp)) item hm ho
termination_by structural new => new

end

end Json

end Admission
