import Admission.Json.Patch
import Admission.Proofs.Dict

/-!
# Operations at a place

A path that ends inside a document splits it into a value and what is around it.  A `Place` is such
a path with its surroundings, whatever stands there; places are built from the whole document by going
to a key (`Place.key`) or to an item (`Place.item`).  Every operation at a place changes the value there
and nothing around it.

That an item is found needs that an index in a path is read as the number it was written for
(`Pointer.index?_toString`).
-/

namespace Admission

/-! ## 1. an index in a path -/

namespace Pointer

theorem head?_toDigits_ne {n : Nat} (hn : n ≠ 0) : (Nat.toDigits 10 n).head? ≠ some '0' := by
  have hdigit : ∀ d < 10, d ≠ 0 → [d.digitChar].head? ≠ some '0' := by decide
  induction n using Nat.strongRecOn with
  | ind n ih =>
    rcases Nat.lt_or_ge n 10 with hlt | hge
    · rw [Nat.toDigits_of_lt_base hlt]
      exact hdigit n hlt hn
    · have hbefore := ih (n / 10) (by omega) (by omega)
      rw [Nat.toDigits_of_base_le (by omega) hge, List.head?_append]
      cases hdigits : Nat.toDigits 10 (n / 10) with
      | nil => exact absurd hdigits Nat.toDigits_ne_nil
      | cons c cs =>
        rw [hdigits] at hbefore
        exact hbefore

/-- A number is read back from its text. -/
theorem index?_toString {n limit : Nat} (h : n < limit) :
    index? limit (toString n) = some n := by
  have hdigits : (toString n).toList = Nat.toDigits 10 n := Nat.toList_repr
  have hall : (Nat.toDigits 10 n).all Char.isDigit = true :=
    List.all_eq_true.2 fun c hc => Nat.isDigit_of_mem_toDigits (by omega) (by omega) hc
  have hzero : ¬((Nat.toDigits 10 n).head? = some '0' ∧ Nat.toDigits 10 n ≠ ['0']) := by
    rintro ⟨hhead, hne⟩
    rcases Nat.eq_zero_or_pos n with rfl | hpos
    · exact hne rfl
    · exact head?_toDigits_ne (by omega) hhead
  have hvalue : (Nat.toDigits 10 n).foldl (fun n c => 10 * n + (c.toNat - 48)) 0 = n :=
    Nat.ofDigitChars_toDigits (b := 10) (by omega) (by omega)
  rw [index?, hdigits, if_neg, hvalue, if_pos h]
  simpa [Nat.toDigits_ne_nil, hall] using hzero

theorem toString_ne_end (n : Nat) : toString n ≠ "-" := by
  intro h
  have hindex := index?_toString (Nat.lt_succ_self n)
  rw [h] at hindex
  exact absurd hindex nofun

end Pointer

/-! ## 2. places -/

/-- A patch makes one document of another. -/
inductive Patch.Takes : Patch → Json → Json → Prop
  | nil (a : Json) : Takes [] a a
  | cons {operation : PatchOperation} {rest : Patch} {a b c : Json}
      (h : operation.apply a = .ok b) (hrest : Takes rest b c) : Takes (operation :: rest) a c

namespace Patch.Takes

variable {patch other : Patch} {operation : PatchOperation} {a b c : Json}

theorem single (h : operation.apply a = .ok b) : Takes [operation] a b := .cons h (.nil b)

theorem append (h : Takes patch a b) (ho : Takes other b c) : Takes (patch ++ other) a c := by
  induction h with
  | nil => exact ho
  | cons hfirst _ ih => exact .cons hfirst (ih ho)

theorem applyFrom (h : Takes patch a b) (position : Nat) :
    patch.applyFrom position a = .ok b := by
  induction h generalizing position with
  | nil => rfl
  | cons hfirst _ ih =>
    rw [Patch.applyFrom, hfirst]
    exact ih (position + 1)

end Patch.Takes

namespace Json

theorem modifyAt_append {ε : Type} {absent : ε} {change : Json → Except ε Json}
    (path rest : Pointer) (document : Json) :
    document.modifyAt absent change (path ++ rest) =
      document.modifyAt absent (fun value => value.modifyAt absent change rest) path := by
  induction path generalizing document with
  | nil => rfl
  | cons step path ih =>
    cases document with
    | obj fields => simp only [List.cons_append, modifyAt, ih]
    | arr items => simp only [List.cons_append, modifyAt, ih]
    | _ => rfl

/-- A path with the document around what it leads to: whatever stands there, a change at the path is
a change of it. -/
def Place (path : Pointer) (around : Json → Json) : Prop :=
  ∀ (change : Json → Except PatchFault Json) (value : Json),
    (around value).modifyAt .invalidPath change path = (change value).map around

namespace Place

variable {path : Pointer} {around : Json → Json}

theorem whole : Place [] id := fun change value => by
  rw [modifyAt, id]
  cases change value <;> rfl

theorem key (h : Place path around) {fields : List (String × Json)} (hs : Fields.Sorted fields)
    (key : String) :
    Place (path ++ [key]) fun value => around (obj (Fields.insert key value fields)) := by
  intro change value
  rw [modifyAt_append, h, modifyAt, Fields.get?_insert, if_pos rfl]
  dsimp only
  rw [modifyAt]
  cases change value with
  | error fault => rfl
  | ok changed =>
    have htwice : Fields.insert key changed (Fields.insert key value fields) =
        Fields.insert key changed fields := hs.update_update key (some value) (some changed)
    simp only [Except.map, bind, Except.bind, pure, Except.pure, htwice]

theorem item (h : Place path around) (done rest : List Json) :
    Place (path ++ [toString done.length]) fun value => around (arr (done ++ value :: rest)) := by
  intro change value
  have hindex : Pointer.index? (done ++ value :: rest).length (toString done.length) =
      some done.length := Pointer.index?_toString (by simp)
  rw [modifyAt_append, h, modifyAt, hindex]
  dsimp only
  rw [List.getElem?_append_right (Nat.le_refl _), Nat.sub_self, List.getElem?_cons_zero]
  dsimp only
  rw [modifyAt]
  cases change value with
  | error fault => rfl
  | ok changed =>
    simp [Except.map, bind, Except.bind, pure, Except.pure]

/-! ## 3. what one operation does at a place -/

open Patch (Takes)

theorem takes_replace (h : Place path around) (old new : Json) :
    Takes [.replace path new] (around old) (around new) :=
  .single (h (fun _ => .ok new) old)

theorem addAt_concat (step : String) (value document : Json) :
    PatchOperation.addAt (path ++ [step]) value document =
      document.modifyAt .invalidPath (PatchOperation.put step value) path := by
  rw [PatchOperation.addAt, List.getLast?_concat, List.dropLast_concat]

theorem removeAt_concat (step : String) (document : Json) :
    PatchOperation.removeAt (path ++ [step]) document =
      document.modifyAt .invalidPath (PatchOperation.drop step) path := by
  rw [PatchOperation.removeAt, List.getLast?_concat, List.dropLast_concat]

theorem takes_add_key (h : Place path around) (key : String) (value : Json)
    (fields : List (String × Json)) :
    Takes [.add (path ++ [key]) value] (around (obj fields))
      (around (obj (Fields.insert key value fields))) := by
  refine .single ?_
  rw [PatchOperation.apply, addAt_concat, h]
  rfl

theorem takes_add_item (h : Place path around) (value : Json) (items : List Json) :
    Takes [.add (path ++ [toString items.length]) value] (around (arr items))
      (around (arr (items ++ [value]))) := by
  refine .single ?_
  rw [PatchOperation.apply, addAt_concat, h, PatchOperation.put,
    if_neg (Pointer.toString_ne_end _), Pointer.index?_toString (Nat.lt_succ_self _)]
  dsimp only
  rw [List.take_length, List.drop_length]
  rfl

theorem takes_remove_key (h : Place path around) {key : String} {fields : List (String × Json)}
    (hkey : (Fields.get? key fields).isSome = true) :
    Takes [.remove (path ++ [key])] (around (obj fields))
      (around (obj (Fields.erase key fields))) := by
  refine .single ?_
  rw [PatchOperation.apply, removeAt_concat, h, PatchOperation.drop, if_pos hkey]
  rfl

theorem takes_remove_item (h : Place path around) (done : List Json) (item : Json)
    (rest : List Json) :
    Takes [.remove (path ++ [toString done.length])] (around (arr (done ++ item :: rest)))
      (around (arr (done ++ rest))) := by
  refine .single ?_
  have hindex : Pointer.index? (done ++ item :: rest).length (toString done.length) =
      some done.length := Pointer.index?_toString (by simp)
  rw [PatchOperation.apply, removeAt_concat, h, PatchOperation.drop, hindex]
  dsimp only
  rw [List.eraseIdx_append_of_length_le (Nat.le_refl _), Nat.sub_self]
  rfl

end Place

end Json

end Admission
