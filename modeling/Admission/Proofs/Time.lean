import Mathlib.Tactic.IntervalCases
import Mathlib.Tactic.Ring
import Admission.Time.Instant

/-!
# Instants are read back from their text

An instant is written as its UTC date and time of day, and read from that as it was
(`Instant.ofText?_text`).  The date is that of a number of days (`Date.toDays_ofDays`), and is one that
the calendar has (`Date.isValid_ofDays`).

Years are counted from March, as they are in the definitions, so that the day that some years add comes
last.
-/

namespace Admission.Time

/-! ## 1. the date of a number of days -/

/-- The date of a day of a year that starts with March. -/
def Date.ofMarch (year dayOfYear : Int) : Date :=
  let month := (5 * dayOfYear + 2) / 153
  let day := (dayOfYear - (153 * month + 2) / 5 + 1).toNat
  let month := if month < 10 then (month + 3).toNat else (month - 9).toNat
  ⟨year + (if month ≤ 2 then 1 else 0), month, day⟩

/-- The number of days before a year that starts with March. -/
def daysBefore (year : Int) : Int := 365 * year + year / 4 - year / 100 + year / 400 - 719468

section March

variable (year : Int) {dayOfYear : Int} (h0 : 0 ≤ dayOfYear) (h1 : dayOfYear ≤ 365)

include h0 h1

/-- The number of days before a month is linear in the number of months. -/
theorem exists_ofMarch : ∃ month day : Nat, month ≤ 11 ∧ 1 ≤ day ∧
    dayOfYear + 1 = ((153 * month + 2) / 5 + day : Nat) ∧
    (153 * month + 2) / 5 + day ≤ (153 * month + 155) / 5 ∧
    Date.ofMarch year dayOfYear =
      if month < 10 then ⟨year, month + 3, day⟩ else ⟨year + 1, month - 9, day⟩ := by
  have hm : 0 ≤ (5 * dayOfYear + 2) / 153 ∧ (5 * dayOfYear + 2) / 153 ≤ 11 := by omega
  obtain ⟨month, hmonth⟩ := Int.eq_ofNat_of_zero_le hm.1
  have hbefore : (153 * (month : Int) + 2) / 5 = ((153 * month + 2) / 5 : Nat) := by omega
  unfold Date.ofMarch
  dsimp only
  rw [hmonth, hbefore]
  refine ⟨month, (dayOfYear - ((153 * month + 2) / 5 : Nat) + 1).toNat, by omega, by omega,
    by omega, by omega, ?_⟩
  rcases Nat.lt_or_ge month 10 with hlt | hge
  · simp only [hlt, if_true, show (month : Int) < 10 by omega,
      show ¬((month : Int) + 3).toNat ≤ 2 by omega, if_false, Int.add_zero]
    rfl
  · simp only [show ¬month < 10 by omega, if_false, show ¬(month : Int) < 10 by omega,
      show ((month : Int) - 9).toNat ≤ 2 by omega, if_true]
    congr 1
    omega

theorem toDays_ofMarch :
    (Date.ofMarch year dayOfYear).toDays = daysBefore year + dayOfYear := by
  obtain ⟨month, day, hm, hd, hday, -, hdate⟩ := exists_ofMarch year h0 h1
  have hfour : (year - year / 400 * 400) / 4 = year / 4 - 100 * (year / 400) := by omega
  have hhundred : (year - year / 400 * 400) / 100 = year / 100 - 4 * (year / 400) := by omega
  rw [hdate]
  unfold Date.toDays daysBefore
  rcases Nat.lt_or_ge month 10 with hlt | hge
  · have hback : (((month + 3 : Nat) : Int) + 9) % 12 = month := by omega
    simp only [hlt, if_true, show ¬month + 3 ≤ 2 by omega, if_false, hfour, hhundred, hback]
    omega
  · have hback : (((month - 9 : Nat) : Int) + 9) % 12 = month := by omega
    simp only [show ¬month < 10 by omega, if_false, show month - 9 ≤ 2 by omega, if_true,
      Int.add_sub_cancel, hfour, hhundred, hback]
    omega

theorem isValid_ofMarch (hleap : dayOfYear = 365 → isLeap (year + 1) = true) :
    (Date.ofMarch year dayOfYear).isValid = true := by
  obtain ⟨month, day, hm, hd, hday, hlast, hdate⟩ := exists_ofMarch year h0 h1
  rw [hdate]
  unfold Date.isValid daysIn
  interval_cases month
  case «11» =>
    -- February, which ends the year
    cases hleap' : isLeap (year + 1) with
    | true => simp [hleap']; omega
    | false =>
      simp [hleap'] at hleap ⊢
      omega
  all_goals simp; omega

theorem year_ofMarch : (Date.ofMarch year dayOfYear).year =
    if dayOfYear < 306 then year else year + 1 := by
  obtain ⟨month, day, hm, hd, hday, hlast, hdate⟩ := exists_ofMarch year h0 h1
  rw [hdate]
  rcases Nat.lt_or_ge month 10 with hlt | hge
  · rw [if_pos hlt, if_pos (by omega)]
  · rw [if_neg (by omega), if_neg (by omega)]

end March

/-- A day of an era is one of a century, of a cycle of four years in it and of a year in that.  The last
day of a year of 366 days is in a leap year. -/
theorem exists_dayOfEra {day : Int} (h0 : 0 ≤ day) (h1 : day ≤ 146096) :
    ∃ century cycle year dayOfYear : Int, (0 ≤ century ∧ century ≤ 3) ∧ (0 ≤ cycle ∧ cycle ≤ 24) ∧
      (0 ≤ year ∧ year ≤ 3) ∧ (0 ≤ dayOfYear ∧ dayOfYear ≤ 365) ∧
      (dayOfYear = 365 → year = 3 ∧ (cycle = 24 → century = 3)) ∧
      day = 36524 * century + 1461 * cycle + 365 * year + dayOfYear := by
  obtain ⟨century, hc0, hc1, hrest0, hrest1⟩ : ∃ century : Int, 0 ≤ century ∧ century ≤ 3 ∧
      0 ≤ day - 36524 * century ∧
      day - 36524 * century ≤ if century = 3 then 36524 else 36523 :=
    ⟨min (day / 36524) 3, by omega⟩
  generalize hrest : day - 36524 * century = rest at hrest0 hrest1
  obtain ⟨cycle, hl0, hl1, hleft0, hleft1⟩ : ∃ cycle : Int, 0 ≤ cycle ∧ cycle ≤ 24 ∧
      0 ≤ rest - 1461 * cycle ∧
      rest - 1461 * cycle ≤ if cycle = 24 ∧ century ≠ 3 then 1459 else 1460 :=
    ⟨rest / 1461, by omega⟩
  generalize hleft : rest - 1461 * cycle = left at hleft0 hleft1
  refine ⟨century, cycle, min (left / 365) 3, left - 365 * min (left / 365) 3, ⟨hc0, hc1⟩,
    ⟨hl0, hl1⟩, ?_⟩
  omega

/-- The estimate of the year of an era counts out the days that leap years add. -/
theorem yearOfEra_eq {century cycle year dayOfYear : Int} (hc : 0 ≤ century ∧ century ≤ 3)
    (hl : 0 ≤ cycle ∧ cycle ≤ 24) (hy : 0 ≤ year ∧ year ≤ 3) (hd : 0 ≤ dayOfYear ∧ dayOfYear ≤ 365)
    (hleap : dayOfYear = 365 → year = 3 ∧ (cycle = 24 → century = 3)) {day : Int}
    (hday : day = 36524 * century + 1461 * cycle + 365 * year + dayOfYear) :
    (day - day / 1460 + day / 36524 - day / 146096) / 365 = 100 * century + 4 * cycle + year := by
  have hcycles : day / 1460 = 25 * century + cycle +
      (if 24 * century + cycle + 365 * year + dayOfYear < 1460 then 0 else 1) := by
    split <;> omega
  have hcenturies : day / 36524 - day / 146096 = century := by
    rcases Decidable.em (day = 146096) with rfl | hne
    · omega
    · have hexact : day / 36524 = century := by omega
      omega
  split at hcycles <;> omega

/-- **The date of a number of days is that of a day of a year.** -/
theorem exists_ofDays (days : Int) : ∃ year dayOfYear : Int, 0 ≤ dayOfYear ∧ dayOfYear ≤ 365 ∧
    (dayOfYear = 365 → isLeap (year + 1) = true) ∧ days = daysBefore year + dayOfYear ∧
    Date.ofDays days = Date.ofMarch year dayOfYear := by
  have hera : 0 ≤ days + 719468 - (days + 719468) / 146097 * 146097 ∧
      days + 719468 - (days + 719468) / 146097 * 146097 ≤ 146096 := by omega
  unfold Date.ofDays
  dsimp only
  generalize (days + 719468) / 146097 = era at hera ⊢
  generalize hday : days + 719468 - era * 146097 = day at hera ⊢
  obtain ⟨century, cycle, year, dayOfYear, hc, hl, hy, hd, hlast, hsum⟩ :=
    exists_dayOfEra hera.1 hera.2
  have hquotients : (100 * century + 4 * cycle + year) / 4 = 25 * century + cycle ∧
      (100 * century + 4 * cycle + year) / 100 = century ∧
      (100 * century + 4 * cycle + year) / 400 = 0 := by
    clear hday hsum
    omega
  obtain ⟨hfour, hhundred, hall⟩ := hquotients
  have hdayOfYear : day - (365 * (100 * century + 4 * cycle + year) + (25 * century + cycle) -
      century) = dayOfYear := by
    rw [hsum]
    ring
  rw [yearOfEra_eq hc hl hy hd hlast hsum, hfour, hhundred, hdayOfYear]
  refine ⟨100 * century + 4 * cycle + year + era * 400, dayOfYear, hd.1, hd.2, fun h => ?_, ?_, rfl⟩
  · obtain ⟨hthree, hcentury⟩ := hlast h
    unfold isLeap
    simp only [Bool.and_eq_true, Bool.or_eq_true, decide_eq_true_eq]
    clear hday hsum
    omega
  · unfold daysBefore
    generalize 100 * century + 4 * cycle + year = yearOfEra at *
    have hshifts : (yearOfEra + era * 400) / 4 = yearOfEra / 4 + 100 * era ∧
        (yearOfEra + era * 400) / 100 = yearOfEra / 100 + 4 * era ∧
        (yearOfEra + era * 400) / 400 = yearOfEra / 400 + era := by
      clear hday hsum hfour hhundred hall
      omega
    rw [hshifts.1, hshifts.2.1, hshifts.2.2, hfour, hhundred, hall]
    omega

/-- **A number of days is that of its date.** -/
theorem Date.toDays_ofDays (days : Int) : (Date.ofDays days).toDays = days := by
  obtain ⟨year, dayOfYear, h0, h1, -, hdays, hdate⟩ := exists_ofDays days
  rw [hdate, toDays_ofMarch year h0 h1, hdays]

/-- **The date of a number of days is in the calendar.** -/
theorem Date.isValid_ofDays (days : Int) : (Date.ofDays days).isValid = true := by
  obtain ⟨year, dayOfYear, h0, h1, hleap, -, hdate⟩ := exists_ofDays days
  rw [hdate]
  exact isValid_ofMarch year h0 h1 hleap

/-! ## 2. the date of an instant -/

namespace Instant

/-- The number of whole days of an instant. -/
def days (t : Instant) : Int := t.seconds / 86400

theorem year_le (t : Instant) : -9999 ≤ (Date.ofDays t.days).year ∧
    (Date.ofDays t.days).year ≤ 9999 := by
  obtain ⟨year, dayOfYear, h0, h1, -, hdays, hdate⟩ := exists_ofDays t.days
  have hfirst : -4371586 ≤ t.days := by
    have hearliest : -377705023201 ≤ t.seconds := t.inRange.1
    unfold days
    omega
  have hlast : t.days ≤ 2932895 := by
    have hlatest : t.seconds ≤ 253402207200 := t.inRange.2
    unfold days
    omega
  rw [hdays] at hfirst hlast
  clear hdays
  unfold daysBefore at hfirst hlast
  rw [hdate, year_ofMarch year h0 h1]
  split <;> omega

end Instant

/-! ## 3. reading what is written -/

section Digits

variable {width n : Nat} (hw : 0 < width) (h : n < 10 ^ width)

theorem all_isDigit_padded (width n : Nat) : (padded width n).toList.all Char.isDigit = true := by
  unfold padded
  rw [String.toList_ofList, List.all_append, Bool.and_eq_true, List.all_eq_true, List.all_eq_true]
  refine ⟨fun c hc => ?_, fun c hc => Nat.isDigit_of_mem_toDigits (by omega) (by omega) hc⟩
  rw [List.eq_of_mem_replicate hc]
  rfl

include hw h

theorem length_padded : (padded width n).toList.length = width := by
  have hdigits : (Nat.toDigits 10 n).length ≤ width :=
    (Nat.length_toDigits_le_iff (by omega) hw).2 h
  unfold padded
  rw [String.toList_ofList, List.length_append, List.length_replicate]
  omega

theorem number?_padded (rest : List Char) :
    number? width ((padded width n).toList ++ rest) = some (n, rest) := by
  have hlength := length_padded hw h
  have hvalue : (padded width n).toList.foldl (fun n c => 10 * n + (c.toNat - 48)) 0 = n := by
    unfold padded
    rw [String.toList_ofList]
    show Nat.ofDigitChars 10 (_ ++ _) 0 = n
    rw [Nat.ofDigitChars_append, Nat.ofDigitChars_replicate_zero, Nat.mul_zero,
      Nat.ofDigitChars_toDigits (by omega) (by omega)]
  unfold number?
  rw [List.take_left' hlength, List.drop_left' hlength]
  dsimp only
  rw [if_pos ⟨hlength, all_isDigit_padded width n⟩, hvalue]

end Digits

theorem year?_written {year : Int} (h : -9999 ≤ year ∧ year ≤ 9999) (rest : List Char) :
    year? ((if year < 0 then "-" ++ padded 6 year.natAbs else padded 4 year.toNat).toList ++ rest) =
      some (year, rest) := by
  split
  · rename_i hneg
    have hsign : ("-" ++ padded 6 year.natAbs).toList ++ rest =
        '-' :: ((padded 6 year.natAbs).toList ++ rest) := by
      rw [String.toList_append]
      rfl
    rw [hsign, year?, number?_padded (by omega) (by omega), Option.bind_some]
    dsimp only
    rw [if_neg (by omega), show -(year.natAbs : Int) = year by omega]
  · rename_i hpos
    have hread : number? 4 ((padded 4 year.toNat).toList ++ rest) = some (year.toNat, rest) :=
      number?_padded (by omega) (by omega) rest
    -- the first character is a digit, so no sign
    obtain ⟨c, digits, hcons⟩ : ∃ c digits, (padded 4 year.toNat).toList = c :: digits :=
      List.exists_cons_of_length_pos (by rw [length_padded (by omega) (by omega)]; omega)
    have hdigit : c.isDigit = true := by
      have hall := all_isDigit_padded 4 year.toNat
      rw [hcons, List.all_cons, Bool.and_eq_true] at hall
      exact hall.1
    rw [hcons, List.cons_append] at hread ⊢
    rw [year?, hread, Option.map_some]
    · dsimp only
      rw [Int.toNat_of_nonneg (by omega)]
    · rintro other heq
      cases heq
      cases hdigit
    · rintro other heq
      cases heq
      cases hdigit

theorem daysIn_le (year : Int) (month : Nat) : daysIn year month ≤ 31 := by
  unfold daysIn
  split
  · split <;> omega
  · split <;> omega

theorem date?_written {date : Date} (hyear : -9999 ≤ date.year ∧ date.year ≤ 9999)
    (hvalid : date.isValid = true) (rest : List Char) :
    date? ((if date.year < 0 then "-" ++ padded 6 date.year.natAbs
        else padded 4 date.year.toNat).toList ++
      '-' :: ((padded 2 date.month).toList ++ '-' :: ((padded 2 date.day).toList ++ rest))) =
        some (date, rest) := by
  have hfits : date.month < 10 ^ 2 ∧ date.day < 10 ^ 2 := by
    unfold Date.isValid at hvalid
    simp only [Bool.and_eq_true, decide_eq_true_eq] at hvalid
    obtain ⟨⟨⟨-, hmonth⟩, -⟩, hday⟩ := hvalid
    have hmost := daysIn_le date.year date.month
    omega
  unfold date?
  rw [year?_written hyear]
  simp only [bind, Option.bind_some, List.head?_cons, decide_true, separator?, if_true,
    number?_padded (show 0 < 2 by omega) hfits.1, number?_padded (show 0 < 2 by omega) hfits.2,
    hvalid]

theorem part?_written {n : Nat} (h : n < 60) (rest : List Char) :
    part? true (':' :: ((padded 2 n).toList ++ rest)) = some (some n, rest) := by
  rw [part?, if_pos rfl, number?_padded (by omega) (by omega), Option.map_some]

theorem timeOfDay?_written {hour minute second : Nat} (hh : hour < 24) (hm : minute < 60)
    (hs : second < 60) (rest : List Char) :
    timeOfDay? ((padded 2 hour).toList ++ ':' :: ((padded 2 minute).toList ++
      ':' :: ((padded 2 second).toList ++ 'Z' :: rest))) =
        some (hour * 3600 + minute * 60 + second, 'Z' :: rest) := by
  have hfraction : dropFraction? ('Z' :: rest) = some ('Z' :: rest) := rfl
  unfold timeOfDay?
  rw [number?_padded (by omega) (by omega)]
  simp only [bind, Option.bind_some, List.head?_cons, decide_true, part?_written hm,
    part?_written hs, Option.isSome_some, if_true, hfraction, Option.getD_some]
  rw [if_pos ⟨hh, hm, by omega⟩, Nat.min_eq_left (by omega)]

/-- **An instant is read back from its text.** -/
theorem Instant.ofText?_text (t : Instant) : ofText? t.text = some t := by
  have hsecond : (t.seconds - t.days * 86400).toNat < 86400 := by
    unfold days
    omega
  generalize hrest : (t.seconds - t.days * 86400).toNat = second at hsecond
  have htext : t.text.toList = (if (Date.ofDays t.days).year < 0
      then "-" ++ padded 6 (Date.ofDays t.days).year.natAbs
      else padded 4 (Date.ofDays t.days).year.toNat).toList ++
      '-' :: ((padded 2 (Date.ofDays t.days).month).toList ++
      '-' :: ((padded 2 (Date.ofDays t.days).day).toList ++
      'T' :: ((padded 2 (second / 3600)).toList ++ ':' :: ((padded 2 (second / 60 % 60)).toList ++
      ':' :: ((padded 2 (second % 60)).toList ++ ['Z']))))) := by
    unfold text
    dsimp only
    rw [show t.seconds / 86400 = t.days from rfl, hrest]
    simp only [String.toList_append, List.append_assoc, show "-".toList = ['-'] from rfl,
      show "T".toList = ['T'] from rfl, show ":".toList = [':'] from rfl,
      show "Z".toList = ['Z'] from rfl, List.cons_append, List.nil_append]
  unfold ofText?
  rw [htext, date?_written t.year_le (Date.isValid_ofDays t.days)]
  simp only [bind, Option.bind_some]
  rw [if_pos (.inl trivial), timeOfDay?_written (by omega) (by omega) (by omega)]
  simp only [Option.bind_some, offset?, if_true, Date.toDays_ofDays]
  have hseconds : t.days * 86400 +
      ((second / 3600 * 3600 + second / 60 % 60 * 60 + second % 60 : Nat) : Int) - 0 =
      t.seconds := by
    unfold days at *
    omega
  rw [hseconds, ofSeconds?, dif_pos t.inRange]

end Admission.Time
