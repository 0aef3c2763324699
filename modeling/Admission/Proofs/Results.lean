import Mathlib.Data.List.Forall2

/-!
# Computations that may fail

How a computation made of several ends: well if all of them do, and with the error of the first that
does not.
-/

namespace Admission

variable {ε α β : Type}

theorem bind_eq_ok {x : Except ε α} {f : α → Except ε β} {b : β} :
    x >>= f = .ok b ↔ ∃ a, x = .ok a ∧ f a = .ok b := by
  cases x with
  | error e => simp [bind, Except.bind]
  | ok a => simp [bind, Except.bind]

theorem bind_eq_error {x : Except ε α} {f : α → Except ε β} {e : ε} :
    x >>= f = .error e ↔ x = .error e ∨ ∃ a, x = .ok a ∧ f a = .error e := by
  cases x with
  | error e => simp [bind, Except.bind]
  | ok a => simp [bind, Except.bind]

/-- The error that a computation ends with, if it does. -/
def errorOf? : Except ε α → Option ε
  | .error e => some e
  | .ok _ => none

theorem toOption_eq_some {x : Except ε α} {a : α} : x.toOption = some a ↔ x = .ok a := by
  cases x with
  | error e => simp [Except.toOption]
  | ok b => simp [Except.toOption]

theorem mapM_eq_ok {f : α → Except ε β} {as : List α} {bs : List β} :
    as.mapM f = .ok bs ↔ List.Forall₂ (fun a b => f a = .ok b) as bs := by
  induction as generalizing bs with
  | nil =>
    rw [List.mapM_nil, List.forall₂_nil_left_iff]
    exact ⟨fun h => by cases h; rfl, fun h => by rw [h]; rfl⟩
  | cons a rest ih =>
    rw [List.mapM_cons, bind_eq_ok, List.forall₂_cons_left_iff]
    constructor
    · rintro ⟨b, hb, h⟩
      obtain ⟨others, hr, h⟩ := bind_eq_ok.1 h
      cases h
      exact ⟨b, others, hb, ih.1 hr, rfl⟩
    · rintro ⟨b, others, hb, hr, rfl⟩
      exact ⟨b, hb, bind_eq_ok.2 ⟨others, ih.2 hr, rfl⟩⟩

theorem exists_of_mapM_eq_ok {f : α → Except ε β} {as : List α} {bs : List β}
    (h : as.mapM f = .ok bs) {b : β} (hb : b ∈ bs) : ∃ a ∈ as, f a = .ok b := by
  induction mapM_eq_ok.1 h with
  | nil => cases hb
  | cons hab hrest ih =>
    rcases List.mem_cons.1 hb with rfl | hb
    · exact ⟨_, List.mem_cons_self, hab⟩
    · obtain ⟨a, ha, hfa⟩ := ih (mapM_eq_ok.2 hrest) hb
      exact ⟨a, List.mem_cons_of_mem _ ha, hfa⟩

theorem outcome_of_mapM_eq_ok {f : α → Except ε β} {as : List α} {bs : List β}
    (h : as.mapM f = .ok bs) {a : α} (ha : a ∈ as) : ∃ b ∈ bs, f a = .ok b := by
  induction mapM_eq_ok.1 h with
  | nil => cases ha
  | cons hab hrest ih =>
    rcases List.mem_cons.1 ha with rfl | ha
    · exact ⟨_, List.mem_cons_self, hab⟩
    · obtain ⟨b, hb, hfb⟩ := ih (mapM_eq_ok.2 hrest) ha
      exact ⟨b, List.mem_cons_of_mem _ hb, hfb⟩

theorem exists_mapM_of_forall₂ {γ : Type} {f : α → Except ε β} {rel : β → γ → Prop} {as : List α}
    {cs : List γ} (h : List.Forall₂ (fun a c => ∃ b, f a = .ok b ∧ rel b c) as cs) :
    ∃ bs, as.mapM f = .ok bs ∧ List.Forall₂ rel bs cs := by
  induction h with
  | nil => exact ⟨[], rfl, .nil⟩
  | cons hhead _ ih =>
    obtain ⟨b, hb, hrel⟩ := hhead
    obtain ⟨bs, hbs, hrels⟩ := ih
    exact ⟨b :: bs, mapM_eq_ok.2 (.cons hb (mapM_eq_ok.1 hbs)), .cons hrel hrels⟩

/-- Doing something with every item fails with the error of the first item that it fails with. -/
theorem mapM_eq_error {f : α → Except ε β} {as : List α} {e : ε} :
    as.mapM f = .error e ↔ ∃ earlier a later, as = earlier ++ a :: later ∧
      (∀ a' ∈ earlier, ∃ b, f a' = .ok b) ∧ f a = .error e := by
  induction as with
  | nil =>
    rw [List.mapM_nil]
    exact ⟨fun h => by (cases h), fun ⟨_, _, _, h, _⟩ => by simp at h⟩
  | cons a rest ih =>
    rw [List.mapM_cons, bind_eq_error]
    constructor
    · rintro (h | ⟨b, hb, h⟩)
      · exact ⟨[], a, rest, rfl, by simp, h⟩
      · rcases bind_eq_error.1 h with h | ⟨others, -, h⟩
        · obtain ⟨earlier, a', later, rfl, hok, he⟩ := ih.1 h
          refine ⟨a :: earlier, a', later, rfl, fun x hx => ?_, he⟩
          rcases List.mem_cons.1 hx with rfl | hx
          · exact ⟨b, hb⟩
          · exact hok x hx
        · cases h
    · rintro ⟨earlier, a', later, h, hok, he⟩
      cases earlier with
      | nil =>
        obtain ⟨rfl, rfl⟩ := List.cons.inj h
        exact .inl he
      | cons first earlier =>
        obtain ⟨rfl, rfl⟩ := List.cons.inj h
        obtain ⟨b, hb⟩ := hok a (by simp)
        have hrest : (earlier ++ a' :: later).mapM f = .error e :=
          ih.2 ⟨earlier, a', later, rfl, fun x hx => hok x (List.mem_cons_of_mem _ hx), he⟩
        exact .inr ⟨b, hb, bind_eq_error.2 (.inl hrest)⟩

theorem forM_eq_mapM {f : α → Except ε Unit} (as : List α) :
    as.forM f = as.mapM f >>= fun _ => .ok () := by
  induction as with
  | nil => rfl
  | cons a rest ih =>
    show (f a >>= fun _ => rest.forM f) = _
    rw [List.mapM_cons, ih]
    cases f a with
    | error e => rfl
    | ok _ => cases rest.mapM f <;> rfl

theorem exists_mapM_eq_error {f : α → Except ε β} {as : List α} :
    (∃ e, as.mapM f = .error e) ↔ ∃ a ∈ as, ∃ e, f a = .error e := by
  constructor
  · rintro ⟨e, h⟩
    obtain ⟨earlier, a, later, rfl, -, he⟩ := mapM_eq_error.1 h
    exact ⟨a, by simp, e, he⟩
  · rintro ⟨a, ha, e, he⟩
    cases hall : as.mapM f with
    | error e' => exact ⟨e', rfl⟩
    | ok bs =>
      obtain ⟨i, hi, rfl⟩ := List.getElem_of_mem ha
      have hok := (mapM_eq_ok.1 hall).get hi ((mapM_eq_ok.1 hall).length_eq ▸ hi)
      rw [List.get_eq_getElem, he] at hok
      cases hok

theorem foldlM_keeps {step : β → α → Except ε β} {P : β → Prop}
    (hstep : ∀ b a b', P b → step b a = .ok b' → P b') {as : List α} {b last : β} (hb : P b)
    (h : as.foldlM step b = .ok last) : P last := by
  induction as generalizing b with
  | nil => cases h; exact hb
  | cons a rest ih =>
    rw [List.foldlM_cons] at h
    obtain ⟨next, hn, hr⟩ := bind_eq_ok.1 h
    exact ih (hstep b a next hb hn) hr

end Admission
