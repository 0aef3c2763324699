import Admission.Json.Basic

/-!
# Laying one value over another

Objects are joined key by key, all the way down; any other value hides what lies below it.

* `get?_overlayFields` : a key has the upper value laid over the lower one, or the only one there is.
-/

namespace Admission.Json

mutual

/-- Lays `upper` over `lower`. -/
def overlay (lower : Json) : (upper : Json) → Json
  | .obj upper =>
    match lower with
    | .obj lower => .obj (overlayFields lower upper)
    | _ => .obj (overlayFields [] upper)
  | upper => upper

/-- Lays pairs over an object's pairs, one after the other. -/
def overlayFields (lower : Fields Json) : (upper : List (String × Json)) → Fields Json
  | [] => lower
  | (key, value) :: rest =>
    overlayFields (lower.insert key (overlay ((lower.get? key).getD .null) value)) rest

end

theorem get?_overlayFields (key : String) :
    ∀ (upper lower : Fields Json), (upper.map (·.1)).Nodup →
      (overlayFields lower upper).get? key =
        match upper.get? key with
        | some value => some (overlay ((lower.get? key).getD .null) value)
        | none => lower.get? key
  | [], lower, _ => by simp [overlayFields]
  | (k, v) :: rest, lower, h => by
    obtain ⟨hk, hrest⟩ := List.nodup_cons.1 h
    rw [overlayFields, get?_overlayFields key rest _ hrest]
    by_cases heq : k = key
    · subst heq
      have hnone : Fields.get? k rest = none := by
        induction rest with
        | nil => rfl
        | cons pair rest ih =>
          simp only [List.map_cons, List.mem_cons, not_or] at hk
          have hp : ¬ pair.1 = k := fun e => hk.1 e.symm
          simp only [List.map_cons, List.nodup_cons] at hrest
          rw [Fields.get?, if_neg hp]
          refine ih ?_ hk.2 hrest.2
          simp only [List.map_cons, List.nodup_cons]
          exact ⟨hk.2, hrest.2⟩
      simp [hnone, Fields.get?, Fields.get?_insert]
    · have hne : ¬ key = k := fun e => heq e.symm
      simp [Fields.get?, Fields.get?_insert, heq, hne]

end Admission.Json
