import Admission.Text.Base64

/-!
# Base64 is read back

Each letter stands for one value (`value?_letter`), and a group of four letters has all the bits of the bytes it
was written of: the bits that a shorter last group leaves over are zero, as reading wants them.
-/

namespace Admission.Base64

theorem value?_letter : ∀ n < 64, value? (letter n) = some n := by decide

theorem letter_ne_pad : ∀ n < 64, letter n ≠ '=' := by decide

theorem ofNat_eq {n : Nat} (byte : UInt8) (h : n = byte.toNat) : UInt8.ofNat n = byte := by
  rw [h, UInt8.ofNat_toNat]

theorem decodeChars?_group {x y z w : Nat} (hx : x < 64) (hy : y < 64) (hz : z < 64) (hw : w < 64)
    {rest : List Char} {bytes : List UInt8} (h : decodeChars? rest = some bytes) :
    decodeChars? (letter x :: letter y :: letter z :: letter w :: rest) =
      some (UInt8.ofNat (x * 4 + y / 16) :: UInt8.ofNat (y % 16 * 16 + z / 4) ::
        UInt8.ofNat (z % 4 * 64 + w) :: bytes) := by
  rw [decodeChars?]
  · simp only [value?_letter _ hx, value?_letter _ hy, value?_letter _ hz, value?_letter _ hw, h,
      Option.bind_eq_bind, Option.bind_some]
  · intro _ hpad
    exact absurd hpad (letter_ne_pad w hw)
  · intro hpad
    exact absurd hpad (letter_ne_pad w hw)

/-- Two bytes are read of three letters if the last one has no bits left over. -/
theorem decodeChars?_two {x y z : Nat} (hx : x < 64) (hy : y < 64) (hz : z < 64) (h : z % 4 = 0) :
    decodeChars? [letter x, letter y, letter z, '='] =
      some [UInt8.ofNat (x * 4 + y / 16), UInt8.ofNat (y % 16 * 16 + z / 4)] := by
  rw [decodeChars?]
  · simp only [value?_letter _ hx, value?_letter _ hy, value?_letter _ hz, h, if_true,
      Option.bind_eq_bind, Option.bind_some]
  · intro hpad
    exact absurd hpad (letter_ne_pad z hz)

theorem decodeChars?_one {x y : Nat} (hx : x < 64) (hy : y < 64) (h : y % 16 = 0) :
    decodeChars? [letter x, letter y, '=', '='] = some [UInt8.ofNat (x * 4 + y / 16)] := by
  rw [decodeChars?]
  simp only [value?_letter _ hx, value?_letter _ hy, h, if_true, Option.bind_eq_bind, Option.bind_some]

theorem decodeChars?_encodeChars (bytes : List UInt8) :
    decodeChars? (encodeChars bytes) = some bytes := by
  fun_induction encodeChars bytes with
  | case1 => rfl
  | case2 a =>
    have ha := a.toNat_lt
    rw [decodeChars?_one (by omega) (by omega) (by omega)]
    rw [ofNat_eq a (by omega)]
  | case3 a b =>
    have ha := a.toNat_lt
    have hb := b.toNat_lt
    rw [decodeChars?_two (by omega) (by omega) (by omega) (by omega)]
    rw [ofNat_eq a (by omega), ofNat_eq b (by omega)]
  | case4 a b c rest ih =>
    have ha := a.toNat_lt
    have hb := b.toNat_lt
    have hc := c.toNat_lt
    rw [decodeChars?_group (by omega) (by omega) (by omega) (by omega) ih]
    rw [ofNat_eq a (by omega), ofNat_eq b (by omega),
      ofNat_eq c (by omega)]

/-- **Bytes are read back from their text.** -/
theorem decode?_encode (bytes : List UInt8) : decode? (encode bytes) = some bytes := by
  rw [decode?, encode, String.toList_ofList, decodeChars?_encodeChars]

end Admission.Base64
