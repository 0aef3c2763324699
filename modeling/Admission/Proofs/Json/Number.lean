import Mathlib
import Admission.Json.Number

/-!
# No literal stands for a double that is not a number

Doubles that are not numbers come from zero over zero, infinity over infinity, and zero times
infinity.  Reading a literal never gets there: it multiplies and divides by powers of ten alone, up to
the 308th, and each of these is a number other than zero and the infinities (`exists_power`).

Every operation on doubles is one on unpacked doubles whose outcome is packed again, and packing makes
nothing that is not a number out of a number (`unpack_pack_ne`).
-/

namespace Admission.Json

open Float.Model Float.Model.UnpackedFloat

/-! ## 1. unpacked doubles -/

/-- A double that is a number; the infinities count as numbers. -/
def IsNumber (x : Float) : Prop := x.toModel.unpack ≠ .notANumber

/-- The numbers are the doubles that are equal to themselves. -/
theorem beq_self_iff (x : Float) : (x == x) = true ↔ IsNumber x := by
  refine (beq_iff_ne_notANumber_and_eq x.toModel.unpack x.toModel.unpack).trans ?_
  simp only [IsNumber, true_or, and_true, and_self]

theorem roundWithAccuracy_ne (spec : Format) (s : UnpackedFloat.Sign) (m : Nat) (e : Int)
    (acc : Accuracy) : roundWithAccuracy spec s m e acc ≠ .notANumber := by
  unfold roundWithAccuracy
  dsimp only
  split <;> simp

theorem unpackedOfNat_ne (spec : Format) (n : Nat) : UnpackedFloat.ofNat spec n ≠ .notANumber := by
  unfold UnpackedFloat.ofNat UnpackedFloat.ofInt UnpackedFloat.normalize UnpackedFloat.round
  split
  · exact roundWithAccuracy_ne _ _ _ _ _
  · simp
  · exact roundWithAccuracy_ne _ _ _ _ _

/-- Neither zero nor an infinity, and a number. -/
def IsFinite (u : UnpackedFloat) : Prop := ∃ s m e h, u = .finite s m e h

section Operations

variable {spec : Format} {u v : UnpackedFloat}

theorem unpackedMul_ne (hu : u ≠ .notANumber) (hv : IsFinite v) :
    UnpackedFloat.mul spec u v ≠ .notANumber := by
  obtain ⟨s', m', e', hm', rfl⟩ := hv
  cases u with
  | notANumber => exact absurd rfl hu
  | infinity s => simp [UnpackedFloat.mul]
  | zero s => simp [UnpackedFloat.mul]
  | finite s m e hm => exact roundWithAccuracy_ne spec (s * s') (m * m') (e + e') .exact

theorem unpackedDiv_ne (hu : u ≠ .notANumber) (hv : IsFinite v) :
    UnpackedFloat.div spec u v ≠ .notANumber := by
  obtain ⟨s', m', e', hm', rfl⟩ := hv
  cases u with
  | notANumber => exact absurd rfl hu
  | infinity s => simp [UnpackedFloat.div]
  | zero s => simp [UnpackedFloat.div]
  | finite s m e hm =>
    unfold UnpackedFloat.div
    dsimp only
    exact roundWithAccuracy_ne _ _ _ _ _

end Operations

/-! ## 2. packing -/

theorem unpack_packComponents_ne {s : UnpackedFloat.Sign} {exponent : BitVec 11}
    {mantissa : BitVec 52} (h : exponent = -1#11 → mantissa = 0#52) :
    UnpackedFloat.unpack Format.binary64
      (packComponents Format.binary64 s exponent mantissa) ≠ .notANumber := by
  unfold UnpackedFloat.unpack
  simp only [unpackMantissa_packComponents, unpackExponent_packComponents]
  by_cases he : exponent = -1#11
  · rw [if_pos he, if_pos (h he)]
    simp
  · rw [if_neg he]
    split
    · split <;> simp
    · simp

theorem unpack_pack_ne {u : UnpackedFloat} (h : u ≠ .notANumber) :
    (Float.Model.pack u).unpack ≠ .notANumber := by
  have hpack : (Float.Model.pack u).unpack =
      UnpackedFloat.unpack Format.binary64 (UnpackedFloat.pack Format.binary64 u) := rfl
  rw [hpack]
  cases u with
  | notANumber => exact absurd rfl h
  | infinity s => exact unpack_packComponents_ne fun _ => rfl
  | zero s => exact unpack_packComponents_ne fun h => absurd h (by decide)
  | finite s m e hm =>
    unfold UnpackedFloat.pack
    dsimp only
    split
    · exact unpack_packComponents_ne fun _ => rfl
    · rename_i hbound
      split
      · -- the exponent of a normal number is below the one that marks the infinities
        refine unpack_packComponents_ne fun he => absurd (congrArg BitVec.toNat he) ?_
        have hlt : (e + (Format.binary64.exponentBias : Int) + (52 : Nat)).toNat + 1 < 2 ^ 11 :=
          Nat.lt_of_not_le hbound
        have hones : (-1#11 : BitVec 11).toNat = 2 ^ 11 - 1 := by decide
        rw [BitVec.toNat_ofNat, Nat.mod_eq_of_lt (by omega), hones]
        omega
      · exact unpack_packComponents_ne fun h => absurd h (by decide)

/-! ## 3. doubles -/

namespace IsNumber

variable {x y : Float}

theorem toFloat (n : UInt64) : IsNumber n.toFloat := unpack_pack_ne (unpackedOfNat_ne _ _)

theorem mul (hx : IsNumber x) (hy : IsFinite y.toModel.unpack) : IsNumber (x * y) :=
  unpack_pack_ne (unpackedMul_ne hx hy)

theorem div (hx : IsNumber x) (hy : IsFinite y.toModel.unpack) : IsNumber (x / y) :=
  unpack_pack_ne (unpackedDiv_ne hx hy)

theorem neg (hx : IsNumber x) : IsNumber (-x) := by
  have hneg : x.toModel.unpack.neg ≠ .notANumber := by
    unfold IsNumber at hx
    cases hu : x.toModel.unpack with
    | notANumber => exact absurd hu hx
    | _ => simp [UnpackedFloat.neg]
  exact unpack_pack_ne hneg

end IsNumber

/-- Whether an unpacked double is finite and not zero. -/
def finite? : UnpackedFloat → Bool
  | .finite .. => true
  | _ => false

/-- Every power of ten that literals are scaled by is finite and not zero. -/
theorem exists_power {n : Nat} (h : n ≤ 308) :
    IsFinite (Float.ofScientific 1 false n).toModel.unpack := by
  have hall : ∀ n ≤ 308, finite? (Float.ofScientific 1 false n).toModel.unpack = true := by
    decide +kernel
  have hn := hall n h
  cases hu : (Float.ofScientific 1 false n).toModel.unpack with
  | finite s m e hm => exact ⟨s, m, e, hm, rfl⟩
  | _ => rw [hu] at hn; exact absurd hn (by simp [finite?])

/-! ## 4. literals -/

namespace Literal

theorem isNumber_of_scale? {significand : Nat} {exponent : Int} {x : Float}
    (h : scale? significand exponent = some x) : IsNumber x := by
  have hf := IsNumber.toFloat (UInt64.ofNat significand)
  unfold scale? at h
  dsimp only at h
  split at h
  · cases h; exact hf
  · split at h
    · split at h
      · cases h
      · split at h
        · cases h
        · cases h
          exact hf.mul (exists_power (by omega))
    · split at h
      · cases h
        exact hf.div (exists_power (by omega))
      · split at h
        · cases h
          exact (hf.div (exists_power (Nat.le_refl _))).div (exists_power (by omega))
        · cases h
          have hzero : (0 : Float).toModel.unpack.isNaN = false := by decide +kernel
          exact fun hnan => Bool.false_ne_true (hzero.symm.trans (isNaN_iff.2 hnan))

theorem isNumber_of_toDouble? {l : Literal} {bits : UInt64} (h : l.toDouble? = some bits) :
    IsNumber (Float.ofBits bits) := by
  obtain ⟨x, hx, rfl⟩ := Option.map_eq_some_iff.1 h
  have hnumber := isNumber_of_scale? hx
  rw [Float.ofBits_toBits]
  cases l.negative with
  | true => exact hnumber.neg
  | false => exact hnumber

end Literal

end Admission.Json
