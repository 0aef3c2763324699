import Admission.Snapshot
import Mathlib.Data.List.Nodup
import Mathlib.Data.String.Basic

/-!
# What a snapshot is made of

A snapshot is written as a whole, and what is in it is fixed by the configurations it is written from: they
stand in the order of their names, and those of one name as they were given, because sorting is stable.  The
numbers of the entries go on from one publication to the next, so no two webhooks that a snapshot ever held
have the same one (`entries_published`).
-/

namespace Admission

namespace Snapshot

/-! ## 1. Numbers -/

/-- A webhook without its number. -/
def unnumbered (hook : Webhook) : Webhook := { hook with entry := 0 }

theorem map_unnumbered_number (next : Nat) (hooks : List Webhook) :
    (number next hooks).map unnumbered = hooks.map unnumbered := by
  induction hooks generalizing next with
  | nil => rfl
  | cons hook rest ih =>
    rw [number, List.map_cons, List.map_cons, ih]
    rfl

theorem entries_number (next : Nat) (hooks : List Webhook) :
    (number next hooks).map (·.entry) = List.range' next hooks.length := by
  induction hooks generalizing next with
  | nil => rfl
  | cons hook rest ih => rw [number, List.map_cons, ih, List.length_cons, List.range'_succ]

/-- The webhooks of publications, one after another. -/
def published (snapshot : Snapshot) : List (List Configuration) → List Webhook
  | [] => []
  | configurations :: rest =>
    (snapshot.publish configurations).webhooks ++ (snapshot.publish configurations).published rest

/-- **No number is given twice**, in however many publications. -/
theorem entries_published (snapshot : Snapshot) (publications : List (List Configuration)) :
    ((snapshot.published publications).map (·.entry)) =
      List.range' snapshot.nextEntry (snapshot.published publications).length := by
  induction publications generalizing snapshot with
  | nil => rfl
  | cons configurations rest ih =>
    have hhead : (snapshot.publish configurations).webhooks.map (·.entry) =
        List.range' snapshot.nextEntry (merge configurations).length := entries_number _ _
    have hlength : (snapshot.publish configurations).webhooks.length =
        (merge configurations).length := by
      simpa using congrArg List.length hhead
    have hnext : (snapshot.publish configurations).nextEntry =
        snapshot.nextEntry + (merge configurations).length := rfl
    rw [published, List.map_append, ih, hhead, hnext, List.length_append, hlength,
      List.range'_append_1]

/-! ## 2. Merging -/

/-- Whether one configuration may stand before another. -/
def mayPrecede (a b : Configuration) : Bool := a.name ≤ b.name

theorem mayPrecede_trans (a b c : Configuration) (h : mayPrecede a b) (h' : mayPrecede b c) :
    mayPrecede a c :=
  decide_eq_true (String.le_trans (of_decide_eq_true h) (of_decide_eq_true h'))

theorem mayPrecede_total (a b : Configuration) : mayPrecede a b || mayPrecede b a := by
  simpa [mayPrecede] using String.le_total a.name b.name

section Merge

variable (configurations : List Configuration)

/-- The configurations in the order of their names. -/
def byName : List Configuration := configurations.mergeSort mayPrecede

theorem byName_perm : (byName configurations).Perm configurations := List.mergeSort_perm _ _

theorem pairwise_byName : (byName configurations).Pairwise fun a b => a.name ≤ b.name :=
  (List.pairwise_mergeSort mayPrecede_trans mayPrecede_total configurations).imp fun h =>
    of_decide_eq_true h

/-- **Sorting is stable**: configurations of one name stay in the order given. -/
theorem filter_byName (name : String) :
    (byName configurations).filter (·.name = name) = configurations.filter (·.name = name) := by
  -- those of one name are in order as they are given, so they are found in that order in what is sorted
  have hordered : (configurations.filter (·.name = name)).Pairwise fun a b => mayPrecede a b := by
    refine List.pairwise_of_forall_mem_list fun a ha b hb => decide_eq_true ?_
    rw [of_decide_eq_true (List.mem_filter.1 ha).2, of_decide_eq_true (List.mem_filter.1 hb).2]
  have hsub : (configurations.filter (·.name = name)).Sublist (byName configurations) :=
    List.sublist_mergeSort mayPrecede_trans mayPrecede_total hordered List.filter_sublist
  have hfiltered := hsub.filter (·.name = name)
  rw [List.filter_filter] at hfiltered
  simp only [Bool.and_self] at hfiltered
  refine (hfiltered.eq_of_length ?_).symm
  exact ((byName_perm configurations).filter _).length_eq.symm

end Merge

/-- Configurations of different names are merged in the order of their names, in whatever order they are
given. -/
theorem merge_of_perm {given configurations : List Configuration} (hperm : given.Perm configurations)
    (hsorted : configurations.Pairwise fun a b => a.name < b.name) :
    merge given = configurations.flatMap (·.webhooks) := by
  have hnames : (configurations.map (·.name)).Nodup :=
    List.pairwise_map.2 (hsorted.imp fun {a b} h (heq : a.name = b.name) =>
      String.lt_irrefl _ (heq ▸ h))
  have hle : configurations.Pairwise fun a b => a.name ≤ b.name :=
    hsorted.imp fun h => String.not_lt.1 fun h' => String.lt_irrefl _ (String.lt_trans h h')
  have hsame : byName given = configurations := by
    have hall := (byName_perm given).trans hperm
    refine hall.eq_of_pairwise (fun a b ha hb h h' => ?_) (pairwise_byName given) hle
    exact List.inj_on_of_nodup_map hnames (hall.mem_iff.1 ha) hb (String.le_antisymm h h')
  rw [← hsame]
  rfl

/-- **Webhooks are those of some configurations**: the configurations by their names, those of one name in
the order given, each with its webhooks as declared and in the order declared, and all of them with
different numbers. -/
structure Merges (webhooks : List Webhook) (configurations : List Configuration) : Prop where
  declared : ∃ ordered : List Configuration, ordered.Perm configurations ∧
    ordered.Pairwise (fun a b => a.name ≤ b.name) ∧
    (∀ name, ordered.filter (·.name = name) = configurations.filter (·.name = name)) ∧
    webhooks.map unnumbered = (ordered.flatMap (·.webhooks)).map unnumbered
  numbered : (webhooks.map (·.entry)).Nodup

theorem merges_publish (snapshot : Snapshot) (configurations : List Configuration) :
    Merges (snapshot.publish configurations).webhooks configurations where
  declared := ⟨byName configurations, byName_perm _, pairwise_byName _, filter_byName _,
    map_unnumbered_number _ _⟩
  numbered := by
    show ((number snapshot.nextEntry (merge configurations)).map (·.entry)).Nodup
    rw [entries_number]
    exact List.nodup_range'

end Snapshot

end Admission
