import Admission.Proofs.Lists
import Mathlib.Data.String.Basic

/-!
# Texts that are joined by a slash

Joined texts can be taken apart again where it is known which slash they were joined at: the first one, if no
text before it has a slash; the last one, if no text behind it has; or the only one.
-/

namespace Admission

section Joined

variable {a b c d : String}

theorem toList_joined (a b : String) : (a ++ "/" ++ b).toList = a.toList ++ '/' :: b.toList := by
  rw [String.toList_append, String.toList_append, List.append_assoc]
  rfl

/-- Texts that are joined by a slash can be taken apart again if one of the joined texts is known to have no
other slash. -/
theorem joined_inj (hc : '/' ∉ c.toList) (hd : '/' ∉ d.toList) :
    a ++ "/" ++ b = c ++ "/" ++ d ↔ a = c ∧ b = d := by
  rw [← String.toList_inj, toList_joined, toList_joined, eq_comm,
    List.append_cons_inj_of_notMem hc hd, String.toList_inj, String.toList_inj]
  exact ⟨fun ⟨ha, _, hb⟩ => ⟨ha.symm, hb.symm⟩, fun ⟨ha, hb⟩ => ⟨ha.symm, rfl, hb.symm⟩⟩

theorem joined_inj_first (ha : '/' ∉ a.toList) (hc : '/' ∉ c.toList) :
    a ++ "/" ++ b = c ++ "/" ++ d ↔ a = c ∧ b = d := by
  rw [← String.toList_inj, toList_joined, toList_joined, append_mark_inj ha hc, String.toList_inj,
    String.toList_inj]

theorem joined_inj_last (hb : '/' ∉ b.toList) (hd : '/' ∉ d.toList) :
    a ++ "/" ++ b = c ++ "/" ++ d ↔ a = c ∧ b = d := by
  rw [← String.toList_inj, toList_joined, toList_joined, mark_append_inj hb hd, String.toList_inj,
    String.toList_inj]

end Joined

theorem toList_toString (n : Nat) : (toString n).toList = Nat.toDigits 10 n := Nat.toList_repr

theorem slash_notMem_toString (n : Nat) : '/' ∉ (toString n).toList := by
  intro h
  rw [toList_toString] at h
  exact absurd (Nat.isDigit_of_mem_toDigits (by decide) (by decide) h) (by decide)

theorem toString_nat_inj {m n : Nat} : toString m = toString n ↔ m = n := by
  refine ⟨fun h => ?_, congrArg _⟩
  have hdigits : Nat.toDigits 10 m = Nat.toDigits 10 n := by
    rw [← toList_toString, h, toList_toString]
  rw [← Nat.ofDigitChars_ten_toDigits (n := m), hdigits, Nat.ofDigitChars_ten_toDigits]

end Admission
