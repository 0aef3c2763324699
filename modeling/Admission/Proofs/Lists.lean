import Mathlib.Data.Finset.Card
import Mathlib.Data.List.Dedup
import Mathlib.Data.List.Forall2
import Mathlib.Data.List.TakeWhile

/-!
# Lists item by item

What is related item by item, found at places, kept, cut at marks, or known by parts of its items.
-/

namespace Admission

variable {α β γ : Type}

theorem exists_of_forall₂_filterMap {f : α → Option β} {g : α → γ} {rel : β → γ → Prop}
    {as : List α} (hfound : ∀ a ∈ as, (f a).isSome)
    (h : List.Forall₂ rel (as.filterMap f) (as.map g)) {a : α} (ha : a ∈ as) :
    ∃ b, f a = some b ∧ rel b (g a) := by
  induction as with
  | nil => cases ha
  | cons first rest ih =>
    obtain ⟨b, hb⟩ := Option.isSome_iff_exists.1 (hfound first List.mem_cons_self)
    rw [List.filterMap_cons, hb, List.map_cons] at h
    obtain ⟨hrel, hrest⟩ := List.forall₂_cons.1 h
    rcases List.mem_cons.1 ha with rfl | ha
    · exact ⟨b, hb, hrel⟩
    · exact ih (fun a ha => hfound a (List.mem_cons_of_mem _ ha)) hrest ha

theorem forall₂_filterMap_getElem? {rel : α → β → Prop} {as : List α} {bs : List β}
    (h : List.Forall₂ rel as bs) (places : List Nat) :
    List.Forall₂ rel (places.filterMap (as[·]?)) (places.filterMap (bs[·]?)) := by
  induction places with
  | nil => exact .nil
  | cons i places ih =>
    by_cases hi : i < as.length
    · have hj : i < bs.length := h.length_eq ▸ hi
      simp only [List.filterMap_cons, List.getElem?_eq_getElem hi, List.getElem?_eq_getElem hj]
      exact .cons (h.get hi hj) ih
    · have hj : ¬ i < bs.length := h.length_eq ▸ hi
      simp only [List.filterMap_cons, List.getElem?_eq_none (Nat.not_lt.1 hi),
        List.getElem?_eq_none (Nat.not_lt.1 hj)]
      exact ih

theorem getElem?_of_prefix {as bs : List α} (h : as <+: bs) {i : Nat} {a : α} (ha : as[i]? = some a) :
    bs[i]? = some a := by
  obtain ⟨more, rfl⟩ := h
  rw [List.getElem?_append_left (List.getElem?_eq_some_iff.1 ha).1, ha]

theorem filterMap_cons_toList (f : α → Option β) (a : α) (as : List α) :
    (a :: as).filterMap f = (f a).toList ++ as.filterMap f := by
  rw [List.filterMap_cons]
  cases f a <;> rfl

theorem mem_of_lookup [BEq α] [LawfulBEq α] {pairs : List (α × β)} {a : α} {b : β}
    (h : pairs.lookup a = some b) : (a, b) ∈ pairs := by
  obtain ⟨before, after, rfl, -⟩ := List.lookup_eq_some_iff.1 h
  simp

/-! ### items that are kept -/

/-- The place among all items of the one at a place among those that are kept. -/
def placeOf (keep : α → Bool) : List α → Nat → Nat
  | [], i => i
  | a :: rest, i =>
    if keep a then
      match i with
      | 0 => 0
      | i + 1 => placeOf keep rest i + 1
    else placeOf keep rest i + 1

theorem getElem?_placeOf (keep : α → Bool) (as : List α) (i : Nat) :
    as[placeOf keep as i]? = (as.filter keep)[i]? := by
  induction as generalizing i with
  | nil => rfl
  | cons a rest ih =>
    unfold placeOf
    by_cases ha : keep a = true
    · rw [if_pos ha, List.filter_cons_of_pos ha]
      cases i with
      | zero => rfl
      | succ i => simpa using ih i
    · rw [if_neg ha, List.filter_cons_of_neg ha, List.getElem?_cons_succ, ih]

theorem placeOf_injective (keep : α → Bool) (as : List α) : (placeOf keep as).Injective := by
  induction as with
  | nil => exact fun _ _ h => h
  | cons a rest ih =>
    intro i j h
    unfold placeOf at h
    by_cases ha : keep a = true
    · rw [if_pos ha, if_pos ha] at h
      cases i <;> cases j
      · rfl
      · cases h
      · cases h
      · rw [ih (Nat.succ.inj h)]
    · rw [if_neg ha, if_neg ha] at h
      exact ih (Nat.succ.inj h)

/-! ### items by when they came last -/

section Recent

variable [DecidableEq α]

theorem reverse_dedup_concat (as : List α) (a : α) :
    (as ++ [a]).dedup.reverse = a :: as.dedup.reverse.filter (· ≠ a) := by
  have hdedup : (as ++ [a]).dedup = as.dedup.filter (· ≠ a) ++ [a] := by
    induction as with
    | nil => simp
    | cons b rest ih =>
      rw [List.cons_append]
      by_cases hb : b ∈ rest
      · rw [List.dedup_cons_of_mem (List.mem_append_left _ hb), List.dedup_cons_of_mem hb, ih]
      · rw [List.dedup_cons_of_notMem hb]
        by_cases hab : b = a
        · rw [List.dedup_cons_of_mem (by simp [hab]), ih, List.filter_cons_of_neg (by simp [hab])]
        · rw [List.dedup_cons_of_notMem (by simp [hb, hab]), ih,
            List.filter_cons_of_pos (by simp [hab]), List.cons_append]
  rw [hdedup, List.reverse_append, List.filter_reverse, List.reverse_singleton, List.singleton_append]

/-- The first items without one of them: only one more item need be looked at. -/
theorem take_filter_ne {as : List α} (hnodup : as.Nodup) (a : α) (n : Nat) :
    (as.filter (· ≠ a)).take n = ((as.take (n + 1)).filter (· ≠ a)).take n := by
  induction as generalizing n with
  | nil => simp
  | cons b rest ih =>
    obtain ⟨hb, hrest⟩ := List.nodup_cons.1 hnodup
    rw [List.take_succ_cons]
    by_cases hab : b = a
    · subst hab
      have hnone : ∀ c ∈ rest, decide (c ≠ b) = true := fun c hc =>
        decide_eq_true fun h => hb (h ▸ hc)
      rw [List.filter_cons_of_neg (by simp), List.filter_cons_of_neg (by simp),
        List.filter_eq_self.2 hnone, List.filter_eq_self.2 fun c hc => hnone c (List.mem_of_mem_take hc),
        List.take_take, min_self]
    · rw [List.filter_cons_of_pos (by simp [hab]), List.filter_cons_of_pos (by simp [hab])]
      cases n with
      | zero => rfl
      | succ n => rw [List.take_succ_cons, List.take_succ_cons, ih hrest]

theorem mem_take_reverse_dedup {earlier later : List α} {a : α} {n : Nat}
    (h : (later.filter (· ≠ a)).toFinset.card < n) :
    a ∈ (earlier ++ a :: later).dedup.reverse.take n := by
  have hlength : (a :: later).dedup.length ≤ n := by
    have hsubset : (a :: later).toFinset ⊆ insert a (later.filter (· ≠ a)).toFinset := by
      intro b hb
      by_cases hba : b = a
      · simp [hba]
      · simpa [hba] using hb
    rw [← List.card_toFinset]
    exact (Finset.card_le_card hsubset).trans ((Finset.card_insert_le _ _).trans h)
  obtain ⟨others, hothers⟩ := List.suffix_union_right earlier (a :: later).dedup
  rw [List.dedup_append, ← hothers, List.reverse_append, List.take_append,
    List.take_of_length_le (by simpa using hlength)]
  exact List.mem_append_left _ (by simp)

end Recent

/-! ### pairs -/

/-- Pairs have the same second members if those of each first member are the same, whatever the first
members are renamed to. -/
theorem map_snd_eq_of_filter {place : Nat → Nat} (hplace : place.Injective) {xs ys : List (Nat × α)}
    (hfst : xs.map (·.1) = (ys.map (·.1)).map place)
    (hsnd : ∀ i ∈ ys.map (·.1),
      (xs.filter (·.1 = place i)).map (·.2) = (ys.filter (·.1 = i)).map (·.2)) :
    xs.map (·.2) = ys.map (·.2) := by
  induction xs generalizing ys with
  | nil =>
    have hys : ys = [] := by simpa using hfst.symm
    rw [hys]
  | cons x xs ih =>
    cases ys with
    | nil => cases hfst
    | cons y ys =>
      obtain ⟨k, a⟩ := x
      obtain ⟨i, b⟩ := y
      obtain ⟨rfl, hrest⟩ := List.cons.inj hfst
      have hhead := hsnd i List.mem_cons_self
      simp only [List.filter_cons_of_pos, decide_true, List.map_cons] at hhead
      obtain ⟨rfl, htail⟩ := List.cons.inj hhead
      rw [List.map_cons, List.map_cons, ih hrest fun j hj => ?_]
      by_cases hi : i = j
      · exact hi ▸ htail
      · have hne : place i ≠ place j := fun h => hi (hplace h)
        simpa [List.filter_cons, hi, hne] using hsnd j (List.mem_cons_of_mem _ hj)

theorem perm_map_snd_of_filter [DecidableEq α] {xs ys : List (Nat × α)}
    (h : ∀ i, (xs.filter (·.1 = i)).map (·.2) = (ys.filter (·.1 = i)).map (·.2)) :
    (xs.map (·.2)).Perm (ys.map (·.2)) := by
  have hcount : ∀ (i : Nat) (a : α) (zs : List (Nat × α)),
      zs.count (i, a) = ((zs.filter (·.1 = i)).map (·.2)).count a := by
    intro i a zs
    rw [List.count_eq_countP, List.count_eq_countP, List.countP_map, List.countP_filter]
    refine List.countP_congr fun z _ => ?_
    simp [Prod.ext_iff, and_comm]
  refine List.Perm.map _ (List.perm_iff_count.2 fun pair => ?_)
  rw [hcount, hcount, h]

theorem perm_flatMap_of_filter {pairs : List (Nat × α)} {keyed : List (Nat × β)}
    (hnodup : (keyed.map (·.1)).Nodup) {parts : Nat × β → List α}
    (hparts : ∀ k ∈ keyed, (pairs.filter (·.1 = k.1)).map (·.2) = parts k)
    (hothers : ∀ i ∉ keyed.map (·.1), pairs.filter (·.1 = i) = []) :
    (pairs.map (·.2)).Perm (keyed.flatMap parts) := by
  induction keyed generalizing pairs with
  | nil =>
    have hnil : pairs = [] := List.eq_nil_iff_forall_not_mem.2 fun pair hm => by
      have hnone := List.filter_eq_nil_iff.1 (hothers pair.1 (by simp)) pair hm
      simp at hnone
    rw [hnil]
    exact .nil
  | cons first rest ih =>
    obtain ⟨hfresh, hnodup⟩ := List.nodup_cons.1 hnodup
    have hleft : ∀ i ≠ first.1, (pairs.filter fun pair => !decide (pair.1 = first.1)).filter (·.1 = i) =
        pairs.filter (·.1 = i) := by
      intro i hi
      rw [List.filter_filter]
      refine List.filter_congr fun pair _ => ?_
      by_cases hp : pair.1 = i
      · simp [hp, hi]
      · simp [hp]
    refine ((List.filter_append_perm (·.1 = first.1) pairs).symm.map (·.2)).trans ?_
    rw [List.map_append, hparts first List.mem_cons_self, List.flatMap_cons]
    refine (ih hnodup (fun k hk => ?_) fun i hi => ?_).append_left _
    · have hne : k.1 ≠ first.1 := fun h => hfresh (List.mem_map.2 ⟨k, hk, h⟩)
      rw [hleft _ hne, hparts k (List.mem_cons_of_mem _ hk)]
    · by_cases hfirst : i = first.1
      · rw [List.filter_filter, List.filter_eq_nil_iff]
        rintro pair -
        simp [hfirst]
      · rw [hleft _ hfirst, hothers]
        simp_all

theorem rel_of_mem_of_nodup {rel : α → β → Prop} {xs : List (Nat × α)}
    {ys : List (Nat × β)} (hfst : xs.map (·.1) = ys.map (·.1)) (hnodup : (xs.map (·.1)).Nodup)
    (hrel : List.Forall₂ rel (xs.map (·.2)) (ys.map (·.2))) {i : Nat} {x : α} {y : β}
    (hx : (i, x) ∈ xs) (hy : (i, y) ∈ ys) : rel x y := by
  induction xs generalizing ys with
  | nil => cases hx
  | cons first xs ih =>
    obtain ⟨k, a⟩ := first
    cases ys with
    | nil => cases hy
    | cons other ys =>
      obtain ⟨l, b⟩ := other
      obtain ⟨rfl, hrest⟩ := List.cons.inj hfst
      obtain ⟨hfresh, hnodup⟩ := List.nodup_cons.1 hnodup
      obtain ⟨hhead, hrel⟩ := List.forall₂_cons.1 hrel
      rcases List.mem_cons.1 hx with hx' | hx'
      · obtain ⟨rfl, rfl⟩ := Prod.mk.inj hx'
        rcases List.mem_cons.1 hy with hy' | hy'
        · obtain ⟨-, rfl⟩ := Prod.mk.inj hy'
          exact hhead
        · exact absurd (hrest ▸ List.mem_map.2 ⟨_, hy', rfl⟩) hfresh
      · rcases List.mem_cons.1 hy with hy' | hy'
        · obtain ⟨rfl, -⟩ := Prod.mk.inj hy'
          exact absurd (List.mem_map.2 ⟨_, hx', rfl⟩) hfresh
        · exact ih hrest hnodup hrel hx' hy'

/-! ### the first item in any order -/

theorem isSome_head?_of_perm {xs ys : List α} (h : xs.Perm ys) :
    xs.head?.isSome = ys.head?.isSome := by
  cases xs with
  | nil => rw [h.nil_eq]
  | cons x xs =>
    cases ys with
    | nil => exact absurd h.eq_nil (List.cons_ne_nil x xs)
    | cons y ys => rfl

theorem head?_eq_of_perm {xs ys : List α} (h : xs.Perm ys) (hsame : ∀ x ∈ xs, ∀ y ∈ xs, x = y) :
    xs.head? = ys.head? := by
  cases xs with
  | nil => rw [h.nil_eq]
  | cons x xs =>
    cases ys with
    | nil => exact absurd h.eq_nil (List.cons_ne_nil x xs)
    | cons y ys =>
      exact congrArg some (hsame x List.mem_cons_self y (h.mem_iff.2 List.mem_cons_self))

/-! ### cutting at a mark -/

section Cuts

variable [DecidableEq α] {mark : α} {before after other behind : List α}

theorem takeWhile_mark (h : mark ∉ before) :
    (before ++ mark :: after).takeWhile (· ≠ mark) = before := by
  have hbefore : ∀ c ∈ before, decide (c ≠ mark) = true := by
    intro c hc
    exact decide_eq_true fun heq => h (heq ▸ hc)
  rw [List.takeWhile_append_of_pos hbefore, List.takeWhile_cons_of_neg (by simp), List.append_nil]

theorem takeWhile_unmarked (h : mark ∉ before) : before.takeWhile (· ≠ mark) = before := by
  refine List.takeWhile_eq_self_iff.2 fun c hc => decide_eq_true ?_
  rintro rfl
  exact h hc

theorem append_mark_inj (hbefore : mark ∉ before) (hother : mark ∉ other) :
    before ++ mark :: after = other ++ mark :: behind ↔ before = other ∧ after = behind := by
  constructor
  · intro h
    have hsame : before = other := by
      have htaken := congrArg (List.takeWhile (· ≠ mark)) h
      rwa [takeWhile_mark hbefore, takeWhile_mark hother] at htaken
    subst hsame
    exact ⟨rfl, (List.cons.inj (List.append_cancel_left h)).2⟩
  · rintro ⟨rfl, rfl⟩
    rfl

theorem mark_append_inj (hafter : mark ∉ after) (hbehind : mark ∉ behind) :
    before ++ mark :: after = other ++ mark :: behind ↔ before = other ∧ after = behind := by
  rw [← List.reverse_inj, List.reverse_append, List.reverse_append, List.reverse_cons, List.reverse_cons,
    List.append_assoc, List.append_assoc, List.singleton_append, List.singleton_append,
    append_mark_inj (by simpa using hafter) (by simpa using hbehind), List.reverse_inj, List.reverse_inj,
    and_comm]

end Cuts

end Admission
