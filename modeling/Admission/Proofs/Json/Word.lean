import Admission.Json.Reader
import Admission.Json.Writer
import Admission.Proofs.Json.Place
import Admission.Proofs.Text.Joined

/-!
# Every scalar is written as one word

The scanner takes characters for one word if they are a name or have the form of a number (`Word`).  The writer makes
nothing else of a scalar (`word_write_int`, `word_write_double`): whatever number it writes begins with digits and no
needless zero (`Digits`), and behind them stand a point with digits, an exponent, both or nothing (`Tail`).

A whole number of 64 bits is read of its word again (`wordValue?_int`).
-/

namespace Admission

namespace Json

/-- **Characters are one word.** -/
structure Word (word : List Char) : Prop where
  ne_nil : word ≠ []
  chars : ∀ c ∈ word, isWordChar c = true
  known : isWord word = true

theorem word_null : Word ['n', 'u', 'l', 'l'] := ⟨nofun, List.all_eq_true.1 rfl, rfl⟩

theorem word_true : Word ['t', 'r', 'u', 'e'] := ⟨nofun, List.all_eq_true.1 rfl, rfl⟩

theorem word_false : Word ['f', 'a', 'l', 's', 'e'] := ⟨nofun, List.all_eq_true.1 rfl, rfl⟩

theorem isWordChar_of_isDigit {c : Char} (h : c.isDigit = true) : isWordChar c = true := by
  rw [isWordChar, Char.isAlphanum, h, Bool.or_true]
  rfl

/-! ## 1. The form of a number -/

/-- **The whole digits of a number**: one at least, and no zero in front of others. -/
structure Digits (chars : List Char) : Prop where
  ne_nil : chars ≠ []
  digits : ∀ c ∈ chars, c.isDigit = true
  zero : chars.head? = some '0' → chars = ['0']

theorem digits_zero : Digits ['0'] := ⟨nofun, List.all_eq_true.1 rfl, fun _ => rfl⟩

theorem forall_isDigit_toDigits (n : Nat) : ∀ c ∈ Nat.toDigits 10 n, c.isDigit = true :=
  fun _ hc => Nat.isDigit_of_mem_toDigits (by decide) (by decide) hc

theorem digits_toDigits (n : Nat) : Digits (Nat.toDigits 10 n) := by
  refine ⟨Nat.toDigits_ne_nil, forall_isDigit_toDigits n, fun hhead => ?_⟩
  rcases Nat.eq_zero_or_pos n with rfl | hpos
  · rfl
  · exact absurd hhead (Pointer.head?_toDigits_ne (by omega))

/-- The sign of a number. -/
def signChars (negative : Bool) : List Char := if negative then ['-'] else []

/-- An exponent as it is written. -/
def exponentChars (exponent : Int) : List Char := (toString exponent).toList

theorem exponentChars_eq (exponent : Int) :
    exponentChars exponent = signChars (decide (exponent < 0)) ++ Nat.toDigits 10 exponent.natAbs := by
  cases exponent with
  | ofNat n => exact toList_toString n
  | negSucc n =>
    rw [exponentChars, show toString (Int.negSucc n) = "-" ++ toString (n + 1) from rfl,
      String.toList_append, toList_toString, decide_eq_true (Int.negSucc_lt_zero n)]
    rfl

/-- **What may stand behind the whole digits.** -/
inductive Tail : List Char → Prop
  | nothing : Tail []
  | point {fraction : List Char} (ne_nil : fraction ≠ []) (digits : ∀ c ∈ fraction, c.isDigit = true) :
    Tail ('.' :: fraction)
  | mark (exponent : Int) : Tail ('e' :: exponentChars exponent)
  | both {fraction : List Char} (ne_nil : fraction ≠ []) (digits : ∀ c ∈ fraction, c.isDigit = true)
      (exponent : Int) : Tail ('.' :: (fraction ++ 'e' :: exponentChars exponent))

theorem takeWhile_digits {digits : List Char} (h : ∀ c ∈ digits, c.isDigit = true) (rest : List Char)
    (hrest : ∀ c ∈ rest.head?, c.isDigit = false) :
    (digits ++ rest).takeWhile Char.isDigit = digits ∧ (digits ++ rest).dropWhile Char.isDigit = rest := by
  rw [List.takeWhile_append_of_pos h, List.dropWhile_append_of_pos h]
  cases rest with
  | nil => exact ⟨List.append_nil _, rfl⟩
  | cons c rest =>
    have hc := hrest c rfl
    rw [List.takeWhile_cons_of_neg (by simp [hc]), List.dropWhile_cons_of_neg (by simp [hc])]
    exact ⟨List.append_nil _, rfl⟩

theorem Tail.head {rest : List Char} (h : Tail rest) : ∀ c ∈ rest.head?, c.isDigit = false := by
  cases h with
  | nothing => nofun
  | point => rintro _ ⟨⟩; rfl
  | mark => rintro _ ⟨⟩; rfl
  | both => rintro _ ⟨⟩; rfl

theorem isSome_exponent? (exponent : Int) : (Literal.exponent? (exponentChars exponent)).isSome = true := by
  obtain ⟨hne, hall, -⟩ := digits_toDigits exponent.natAbs
  have hdigits : Nat.toDigits 10 exponent.natAbs ≠ [] ∧
      (Nat.toDigits 10 exponent.natAbs).all Char.isDigit = true := ⟨hne, List.all_eq_true.2 hall⟩
  rw [exponentChars_eq]
  unfold Literal.exponent?
  split
  rename_i negative digits hsplit
  obtain ⟨rfl⟩ : digits = Nat.toDigits 10 exponent.natAbs := by
    cases hs : decide (exponent < 0) with
    | true =>
      rw [hs] at hsplit
      exact (Prod.mk.inj hsplit).2.symm
    | false =>
      rw [hs, signChars, if_neg Bool.false_ne_true, List.nil_append] at hsplit
      split at hsplit
      · rename_i heq
        exact absurd (hall '-' (heq ▸ List.mem_cons_self)) (by decide)
      · rename_i heq
        exact absurd (hall '+' (heq ▸ List.mem_cons_self)) (by decide)
      · exact (Prod.mk.inj hsplit).2.symm
  dsimp only
  rw [if_pos hdigits]
  rfl

theorem Literal.ofTail?_nil (negative : Bool) (whole : List Char) :
    ofTail? negative whole [] = some ⟨negative, whole, [], none⟩ := rfl

theorem Tail.exists_ofTail? {rest : List Char} (h : Tail rest) (negative : Bool) (whole : List Char) :
    ∃ l, Literal.ofTail? negative whole rest = some l ∧ (rest ≠ [] → l.exponent ≠ none) := by
  cases h with
  | nothing => exact ⟨_, rfl, fun hne => absurd rfl hne⟩
  | @point fraction hne hdigits =>
    refine ⟨⟨negative, whole, fraction, some 0⟩, ?_, fun _ => nofun⟩
    rw [Literal.ofTail?]
    simp only [List.takeWhile_eq_self_iff.2 hdigits, List.dropWhile_eq_nil_iff.2 hdigits]
    simp [hne]
  | mark exponent =>
    obtain ⟨e, he⟩ := Option.isSome_iff_exists.1 (isSome_exponent? exponent)
    refine ⟨⟨negative, whole, [], some e⟩, ?_, fun _ => nofun⟩
    unfold Literal.ofTail?
    simp [he]
  | @both fraction hne hdigits exponent =>
    obtain ⟨e, he⟩ := Option.isSome_iff_exists.1 (isSome_exponent? exponent)
    obtain ⟨htake, hdrop⟩ := takeWhile_digits hdigits ('e' :: exponentChars exponent)
      (by rintro _ ⟨⟩; rfl)
    refine ⟨⟨negative, whole, fraction, some e⟩, ?_, fun _ => nofun⟩
    rw [Literal.ofTail?]
    simp only [htake, hdrop]
    simp [hne, he]

theorem Digits.ofWord?_eq {whole rest : List Char} (h : Digits whole)
    (hrest : ∀ c ∈ rest.head?, c.isDigit = false) (negative : Bool) :
    Literal.ofWord? (signChars negative ++ (whole ++ rest)) = Literal.ofTail? negative whole rest := by
  obtain ⟨htake, hdrop⟩ := takeWhile_digits h.digits rest hrest
  have hwhole : ¬(whole = [] ∨ (whole.head? = some '0' ∧ whole ≠ ['0'])) := by
    rintro (hnil | ⟨hhead, hne⟩)
    · exact h.ne_nil hnil
    · exact hne (h.zero hhead)
  unfold Literal.ofWord?
  split
  rename_i sign word hsign
  obtain ⟨rfl, rfl⟩ : negative = sign ∧ whole ++ rest = word := by
    cases negative with
    | true => exact Prod.mk.inj hsign
    | false =>
      rw [signChars, if_neg Bool.false_ne_true, List.nil_append] at hsign
      split at hsign
      · rename_i heq
        obtain ⟨c, digits, rfl⟩ := List.exists_cons_of_ne_nil h.ne_nil
        obtain ⟨rfl, -⟩ := List.cons.inj heq
        exact absurd (h.digits '-' List.mem_cons_self) (by decide)
      · exact Prod.mk.inj hsign
  dsimp only
  rw [htake, hdrop, if_neg hwhole]

theorem isWordChar_of_mem_sign {negative : Bool} : ∀ c ∈ signChars negative, isWordChar c = true := by
  cases negative with
  | true => exact List.all_eq_true.1 rfl
  | false => nofun

theorem isWordChar_of_mem_exponent (exponent : Int) : ∀ c ∈ exponentChars exponent, isWordChar c = true := by
  rw [exponentChars_eq]
  intro c hc
  rcases List.mem_append.1 hc with hsign | hdigit
  · exact isWordChar_of_mem_sign c hsign
  · exact isWordChar_of_isDigit (forall_isDigit_toDigits _ c hdigit)

theorem Tail.chars {rest : List Char} (h : Tail rest) : ∀ c ∈ rest, isWordChar c = true := by
  have hpoint : isWordChar '.' = true := rfl
  have hmark : isWordChar 'e' = true := rfl
  cases h with
  | nothing => nofun
  | point _ hdigits => exact List.forall_mem_cons.2 ⟨hpoint, fun c hc => isWordChar_of_isDigit (hdigits c hc)⟩
  | mark exponent => exact List.forall_mem_cons.2 ⟨hmark, isWordChar_of_mem_exponent exponent⟩
  | both _ hdigits exponent =>
    refine List.forall_mem_cons.2 ⟨hpoint, List.forall_mem_append.2 ⟨?_, ?_⟩⟩
    · exact fun c hc => isWordChar_of_isDigit (hdigits c hc)
    · exact List.forall_mem_cons.2 ⟨hmark, isWordChar_of_mem_exponent exponent⟩

/-- **A number has the form of one.** -/
theorem Digits.word {whole rest : List Char} (h : Digits whole) (hrest : Tail rest) (negative : Bool) :
    Word (signChars negative ++ (whole ++ rest)) where
  ne_nil := List.append_ne_nil_of_right_ne_nil _ (List.append_ne_nil_of_left_ne_nil h.ne_nil _)
  chars := List.forall_mem_append.2 ⟨isWordChar_of_mem_sign,
    List.forall_mem_append.2 ⟨fun c hc => isWordChar_of_isDigit (h.digits c hc), hrest.chars⟩⟩
  known := by
    obtain ⟨l, hl, -⟩ := hrest.exists_ofTail? negative whole
    rw [isWord, h.ofWord?_eq hrest.head, hl]
    exact Bool.or_true _

/-! ## 2. Whole numbers -/

theorem word_write_int (n : Int) : Word (write (.int n)).toList := by
  rw [show (write (.int n)).toList = exponentChars n from rfl, exponentChars_eq]
  have h := (digits_toDigits n.natAbs).word .nothing (decide (n < 0))
  rwa [List.append_nil] at h

/-- A word with a digit in it is no name. -/
theorem nameValue?_of_digit {word : List Char} {c : Char} (hc : c ∈ word) (h : c.isDigit = true) :
    nameValue? word = none := by
  have hne : ∀ name : List Char, name.all (fun d => !d.isDigit) = true → word ≠ name := by
    rintro name hname rfl
    have hdigit := List.all_eq_true.1 hname c hc
    rw [h] at hdigit
    cases hdigit
  rw [nameValue?, if_neg (hne _ rfl), if_neg (hne _ rfl), if_neg (hne _ rfl)]

theorem Digits.wordValue?_eq {whole rest : List Char} (h : Digits whole) (hrest : Tail rest) (negative : Bool) :
    wordValue? (signChars negative ++ (whole ++ rest)) =
      (Literal.ofTail? negative whole rest).bind Literal.value? := by
  obtain ⟨c, hc⟩ := List.exists_mem_of_ne_nil _ h.ne_nil
  have hmem : c ∈ signChars negative ++ (whole ++ rest) :=
    List.mem_append_right _ (List.mem_append_left _ hc)
  rw [wordValue?, nameValue?_of_digit hmem (h.digits c hc), h.ofWord?_eq hrest.head, Option.none_or]

theorem Literal.value?_digits {n : Int} (h : Width.fits 64 n = true) :
    (Literal.mk (decide (n < 0)) (Nat.toDigits 10 n.natAbs) [] none).value? = some (.int n) := by
  have hcounts : Width.count 63 = 9223372036854775808 ∧ Width.count 64 = 18446744073709551616 := by decide
  simp only [Width.fits, Width.fitsSigned, Width.fitsUnsigned, Bool.or_eq_true, Bool.and_eq_true,
    decide_eq_true_eq, show 64 - 1 = 63 from rfl, hcounts.1, hcounts.2] at h
  have hnat : Literal.natOfDigits (Nat.toDigits 10 n.natAbs) = n.natAbs := Nat.ofDigitChars_ten_toDigits
  rw [Literal.value?, hnat, hcounts.1, hcounts.2]
  by_cases hneg : n < 0
  · rw [decide_eq_true hneg, if_neg (by simp), if_pos ⟨rfl, rfl, by omega, by omega⟩,
      show -(n.natAbs : Int) = n by omega]
  · rw [decide_eq_false hneg, if_pos ⟨rfl, rfl, by omega⟩, show (n.natAbs : Int) = n by omega]

/-- **A whole number that fits 64 bits is read of its word.** -/
theorem wordValue?_int {n : Int} (h : Width.fits 64 n = true) :
    wordValue? (write (.int n)).toList = some (.int n) := by
  have hvalue := (digits_toDigits n.natAbs).wordValue?_eq .nothing (decide (n < 0))
  rw [List.append_nil, ← exponentChars_eq] at hvalue
  rw [show (write (.int n)).toList = exponentChars n from rfl, hvalue, Literal.ofTail?_nil, Option.bind_some,
    Literal.value?_digits h]

/-! ## 3. Doubles -/

end Json

namespace Decimal

open Json (Digits Tail digits_toDigits digits_zero forall_isDigit_toDigits signChars exponentChars)

theorem Binary.onGrid?_ne_zero {b : Binary} {e : Int} {s : Scientific} (h : b.onGrid? e = some s) :
    s.digits ≠ 0 := by
  unfold onGrid? at h
  dsimp only at h
  split at h
  · rename_i hlow
    cases h
    simp only [Bool.and_eq_true, decide_eq_true_eq] at hlow
    exact hlow.1.1
  · split at h
    · cases h
      exact Nat.succ_ne_zero _
    · cases h

theorem Binary.shortest_ne_zero {b : Binary} (h : b.significand ≠ 0) : b.shortest.digits ≠ 0 := by
  have hgetD : ∀ found? : Option Scientific, (∀ s ∈ found?, s.digits ≠ 0) →
      (found?.getD ⟨b.significand, 0⟩).digits ≠ 0 := by
    rintro (_ | s) hfound
    · exact h
    · exact hfound s rfl
  refine hgetD _ fun s hs => ?_
  obtain ⟨finer, -, hgrid⟩ := List.exists_of_findSome?_eq_some hs
  exact onGrid?_ne_zero hgrid

theorem Scientific.trim_ne_zero {s : Scientific} (h : s.digits ≠ 0) (fuel : Nat) : (s.trim fuel).digits ≠ 0 := by
  induction fuel generalizing s with
  | zero => exact h
  | succ fuel ih =>
    rw [trim]
    split
    · exact ih (s := ⟨s.digits / 10, s.exponent + 1⟩) (by dsimp only; omega)
    · exact h

theorem digits_of_head {n : Nat} (hn : n ≠ 0) {chars : List Char} (hhead : chars.head? = (Nat.toDigits 10 n).head?)
    (hchars : ∀ c ∈ chars, c.isDigit = true) : Digits chars where
  ne_nil := by
    rintro rfl
    exact Nat.toDigits_ne_nil (List.head?_eq_none_iff.1 hhead.symm)
  digits := hchars
  zero := fun hzero => absurd (hhead.symm.trans hzero) (Pointer.head?_toDigits_ne hn)

/-- **A decimal is written as whole digits and a tail**, whatever the layout. -/
theorem Scientific.render_eq (layout : Layout) {s : Scientific} (h : s.digits ≠ 0) :
    ∃ whole rest, (s.render layout).toList = whole ++ rest ∧ Digits whole ∧ Tail rest ∧ rest ≠ [] := by
  have hall := forall_isDigit_toDigits s.digits
  have hne : Nat.toDigits 10 s.digits ≠ [] := Nat.toDigits_ne_nil
  have hreplicate : ∀ k, ∀ c ∈ List.replicate k '0', c.isDigit = true := fun k c hc =>
    (List.mem_replicate.1 hc).2 ▸ rfl
  unfold render
  dsimp only
  split
  · refine ⟨Nat.toDigits 10 s.digits ++ List.replicate s.exponent.toNat '0', ['.', '0'], ?_, ?_, ?_⟩
    · rw [String.toList_append, String.toList_ofList]
      rfl
    · exact digits_of_head h (List.head?_append_of_ne_nil _ hne)
        (List.forall_mem_append.2 ⟨hall, hreplicate _⟩)
    · exact ⟨.point nofun (List.all_eq_true.1 rfl), List.cons_ne_nil _ _⟩
  split
  · rename_i hwhole hpoint
    refine ⟨(Nat.toDigits 10 s.digits).take ((Nat.toDigits 10 s.digits).length + s.exponent).toNat,
      '.' :: (Nat.toDigits 10 s.digits).drop ((Nat.toDigits 10 s.digits).length + s.exponent).toNat, ?_, ?_, ?_⟩
    · rw [String.toList_append, String.toList_append, String.toList_ofList, String.toList_ofList,
        List.append_assoc]
      simp
    · refine digits_of_head h ?_ fun c hc => hall c (List.mem_of_mem_take hc)
      rw [List.head?_take, if_neg (by omega)]
    · -- the point is within the digits, since the exponent is negative
      refine ⟨.point (fun hnil => ?_) fun c hc => hall c (List.mem_of_mem_drop hc), List.cons_ne_nil _ _⟩
      have hlength := List.drop_eq_nil_iff.1 hnil
      omega
  split
  · refine ⟨['0'], '.' :: (List.replicate (-((Nat.toDigits 10 s.digits).length + s.exponent)).toNat '0' ++
      Nat.toDigits 10 s.digits), ?_, digits_zero, ?_⟩
    · simp [String.toList_append]
    · exact ⟨.point (List.append_ne_nil_of_right_ne_nil _ hne)
        (List.forall_mem_append.2 ⟨hreplicate _, hall⟩), List.cons_ne_nil _ _⟩
  · obtain ⟨d, rest, hdigits⟩ := List.exists_cons_of_ne_nil hne
    rw [hdigits] at hall ⊢
    obtain ⟨hd, hrest⟩ := List.forall_mem_cons.1 hall
    have hhead : ([d] : List Char).head? = (Nat.toDigits 10 s.digits).head? := by rw [hdigits]; rfl
    have hwhole : Digits [d] := digits_of_head h hhead (List.forall_mem_singleton.2 hd)
    cases rest with
    | nil =>
      refine ⟨[d], 'e' :: exponentChars ((([d] : List Char).length + s.exponent) - 1), ?_, hwhole, .mark _,
        List.cons_ne_nil _ _⟩
      rw [String.toList_append, String.toList_append, String.toList_ofList]
      rfl
    | cons d' rest =>
      refine ⟨[d], '.' :: ((d' :: rest) ++
        'e' :: exponentChars (((d :: d' :: rest).length + s.exponent) - 1)), ?_, hwhole,
        .both (List.cons_ne_nil _ _) hrest _, List.cons_ne_nil _ _⟩
      rw [String.toList_append, String.toList_append, String.toList_ofList, List.append_assoc]
      rfl

theorem toList_of_render? {layout : Layout} {bits : UInt64} {text : String} (h : render? layout bits = some text) :
    ∃ negative whole rest, text.toList = signChars negative ++ (whole ++ rest) ∧ Digits whole ∧ Tail rest ∧
      rest ≠ [] := by
  obtain ⟨b, -, rfl⟩ := Option.map_eq_some_iff.1 h
  have hsign : (if b.negative then "-" else "").toList = signChars b.negative := by
    cases b.negative <;> rfl
  dsimp only
  split
  · refine ⟨b.negative, ['0'], ['.', '0'], ?_, digits_zero, .point nofun (List.all_eq_true.1 rfl),
      List.cons_ne_nil _ _⟩
    rw [String.toList_append, hsign]
    rfl
  · rename_i hzero
    obtain ⟨whole, rest, hrender, hparts⟩ := Scientific.render_eq layout
      (Scientific.trim_ne_zero (Binary.shortest_ne_zero hzero) 17)
    refine ⟨b.negative, whole, rest, ?_, hparts⟩
    rw [String.toList_append, hsign, hrender]

end Decimal

namespace Json

theorem word_write_double (bits : UInt64) : Word (write (.double bits)).toList := by
  rw [write]
  cases h : Decimal.render? doubles bits with
  | none => exact word_null
  | some text =>
    obtain ⟨negative, whole, rest, htext, hwhole, hrest, -⟩ := Decimal.toList_of_render? h
    rw [Option.getD_some, htext]
    exact hwhole.word hrest negative

/-- The double that the digits of a double are read as; none when it is too large. -/
def rereadDouble? (bits : UInt64) : Option UInt64 := do
  let text ← Decimal.render? doubles bits
  (← Literal.ofWord? text.toList).toDouble?

/-- **A double is read of its word as a double**, if it is finite. -/
theorem wordValue?_double {bits : UInt64} (h : (Decimal.Binary.ofBits? bits).isSome = true) :
    wordValue? (write (.double bits)).toList = (rereadDouble? bits).map .double := by
  obtain ⟨b, hb⟩ := Option.isSome_iff_exists.1 h
  obtain ⟨text, hrender⟩ : ∃ text, Decimal.render? doubles bits = some text := by
    rw [Decimal.render?, hb]
    exact ⟨_, rfl⟩
  obtain ⟨negative, whole, rest, htext, hwhole, hrest, hne⟩ := Decimal.toList_of_render? hrender
  obtain ⟨l, hl, hexponent⟩ := hrest.exists_ofTail? negative whole
  have hvalue : l.value? = l.toDouble?.map .double := by
    rw [Literal.value?, if_neg fun h => hexponent hne h.1, if_neg fun h => hexponent hne h.1]
  rw [write, rereadDouble?, hrender, Option.getD_some, htext, hwhole.wordValue?_eq hrest, hl, Option.bind_some,
    hvalue, Option.bind_eq_bind, Option.bind_some, htext, hwhole.ofWord?_eq hrest.head, hl]
  rfl

end Json

end Admission
