/-!
# Points in time

An instant is a number of whole seconds since 1970-01-01T00:00:00Z, so that its UTC year has at most
four digits.  It is read from a date, a time of day and an offset from UTC, and written as the UTC date
and time; a fraction of a second is read and dropped.
-/

namespace Admission.Time

/-- A calendar date. -/
structure Date where
  year : Int
  month : Nat
  day : Nat
  deriving DecidableEq, Repr

/-- Whether a year has a 29 February. -/
def isLeap (year : Int) : Bool := year % 4 = 0 && (year % 100 ≠ 0 || year % 400 = 0)

/-- The number of days of a month. -/
def daysIn (year : Int) (month : Nat) : Nat :=
  if month = 2 then (if isLeap year then 29 else 28)
  else if month = 4 ∨ month = 6 ∨ month = 9 ∨ month = 11 then 30
  else 31

/-- Whether the month has such a day. -/
def Date.isValid (d : Date) : Bool :=
  1 ≤ d.month && d.month ≤ 12 && 1 ≤ d.day && d.day ≤ daysIn d.year d.month

/-- The number of days from 1970-01-01 to a date.  Years are counted from March, so that the day
that some years add comes last. -/
def Date.toDays (d : Date) : Int :=
  let year := if d.month ≤ 2 then d.year - 1 else d.year
  let era := year / 400
  let yearOfEra := year - era * 400
  let month : Int := (d.month + 9) % 12
  let dayOfYear := (153 * month + 2) / 5 + d.day - 1
  let dayOfEra := yearOfEra * 365 + yearOfEra / 4 - yearOfEra / 100 + dayOfYear
  era * 146097 + dayOfEra - 719468

/-- The date a number of days after 1970-01-01. -/
def Date.ofDays (days : Int) : Date :=
  let shifted := days + 719468
  let era := shifted / 146097
  let dayOfEra := shifted - era * 146097
  let yearOfEra := (dayOfEra - dayOfEra / 1460 + dayOfEra / 36524 - dayOfEra / 146096) / 365
  let dayOfYear := dayOfEra - (365 * yearOfEra + yearOfEra / 4 - yearOfEra / 100)
  let month := (5 * dayOfYear + 2) / 153
  let day := (dayOfYear - (153 * month + 2) / 5 + 1).toNat
  let month := if month < 10 then (month + 3).toNat else (month - 9).toNat
  ⟨yearOfEra + era * 400 + (if month ≤ 2 then 1 else 0), month, day⟩

/-- The first instant, -9999-01-02T01:59:59Z. -/
def Instant.earliest : Int := -377705023201

/-- The last instant, 9999-12-30T22:00:00Z. -/
def Instant.latest : Int := 253402207200

/-- Whole seconds since the start of 1970, UTC.  At every offset the date is in a year of at most four
digits. -/
structure Instant where
  seconds : Int
  inRange : Instant.earliest ≤ seconds ∧ seconds ≤ Instant.latest
  deriving DecidableEq, Repr

/-- The instant of a number of seconds, if there is one. -/
def Instant.ofSeconds? (seconds : Int) : Option Instant :=
  if h : earliest ≤ seconds ∧ seconds ≤ latest then some ⟨seconds, h⟩ else none

/-! ## reading -/

/-- A number of exactly `width` digits, and what follows. -/
def number? (width : Nat) (text : List Char) : Option (Nat × List Char) :=
  let digits := text.take width
  if digits.length = width ∧ digits.all Char.isDigit then
    some (digits.foldl (fun n c => 10 * n + (c.toNat - 48)) 0, text.drop width)
  else none

/-- Drops a separator, or nothing where the parts are written without. -/
def separator? (mark : Char) (extended : Bool) (text : List Char) : Option (List Char) :=
  match text with
  | c :: rest => if c = mark then (if extended then some rest else none)
                 else (if extended then none else some text)
  | [] => if extended then none else some text

/-- A year: four digits, or a sign and six digits, never minus zero. -/
def year? (text : List Char) : Option (Int × List Char) :=
  match text with
  | '+' :: rest => (number? 6 rest).map fun (n, rest) => ((n : Int), rest)
  | '-' :: rest => (number? 6 rest).bind fun (n, rest) =>
      if n = 0 then none else some (-(n : Int), rest)
  | text => (number? 4 text).map fun (n, rest) => ((n : Int), rest)

/-- A date, with dashes between its parts or without. -/
def date? (text : List Char) : Option (Date × List Char) := do
  let (year, rest) ← year? text
  let extended := rest.head? = some '-'
  let rest ← separator? '-' extended rest
  let (month, rest) ← number? 2 rest
  let rest ← separator? '-' extended rest
  let (day, rest) ← number? 2 rest
  let date : Date := ⟨year, month, day⟩
  if date.isValid then some (date, rest) else none

/-- Drops a fraction of one to nine digits, if there is one. -/
def dropFraction? (text : List Char) : Option (List Char) :=
  match text with
  | c :: rest =>
    if c = '.' ∨ c = ',' then
      let digits := rest.takeWhile Char.isDigit
      if digits = [] ∨ 9 < digits.length then none else some (rest.dropWhile Char.isDigit)
    else some text
  | [] => some text

/-- A further part of a time of day, zero if it is not there. -/
def part? (extended : Bool) (text : List Char) : Option (Option Nat × List Char) :=
  if extended then
    match text with
    | ':' :: rest => (number? 2 rest).map fun (n, rest) => (some n, rest)
    | text => some (none, text)
  else if (text.head?.map Char.isDigit).getD false then
    (number? 2 text).map fun (n, rest) => (some n, rest)
  else some (none, text)

/-- A time of day in seconds: hours, then minutes and seconds if they are given.  The second 60 is
the second 59. -/
def timeOfDay? (text : List Char) : Option (Nat × List Char) := do
  let (hours, rest) ← number? 2 text
  let extended := rest.head? = some ':'
  let (minutes?, rest) ← part? extended rest
  let (seconds?, rest) ←
    if minutes?.isSome then part? extended rest else some (none, rest)
  let rest ← if seconds?.isSome then dropFraction? rest else some rest
  let minutes := minutes?.getD 0
  let seconds := seconds?.getD 0
  if hours < 24 ∧ minutes < 60 ∧ seconds ≤ 60 then
    some (hours * 3600 + minutes * 60 + min seconds 59, rest)
  else none

/-- An offset from UTC in seconds: `Z`, or a sign, hours and perhaps minutes and seconds. -/
def offset? (text : List Char) : Option (Int × List Char) := do
  match text with
  | 'Z' :: rest => some (0, rest)
  | 'z' :: rest => some (0, rest)
  | sign :: rest =>
    if sign = '+' ∨ sign = '-' then
      let (hours, rest) ← number? 2 rest
      let extended := rest.head? = some ':'
      let (minutes?, rest) ← part? extended rest
      let (seconds?, rest) ←
        if minutes?.isSome then part? extended rest else some (none, rest)
      let minutes := minutes?.getD 0
      let seconds := seconds?.getD 0
      if hours ≤ 25 ∧ minutes < 60 ∧ seconds < 60 then
        let total : Int := hours * 3600 + minutes * 60 + seconds
        some (if sign = '-' then -total else total, rest)
      else none
    else none
  | [] => none

/-- Reads a date, a `T` or blank, a time of day and an offset.  No text shows a fraction of a second, so that
objects that are compared as they are encoded lose nothing if it is dropped here. -/
def Instant.ofText? (text : String) : Option Instant := do
  let (date, rest) ← date? text.toList
  match rest with
  | mark :: rest =>
    if mark = 'T' ∨ mark = 't' ∨ mark = ' ' then
      let (time, rest) ← timeOfDay? rest
      let (offset, rest) ← offset? rest
      if rest = [] then ofSeconds? (date.toDays * 86400 + time - offset) else none
    else none
  | [] => none

/-! ## writing -/

/-- A number with at least `width` digits. -/
def padded (width n : Nat) : String :=
  let digits := Nat.toDigits 10 n
  String.ofList (List.replicate (width - digits.length) '0' ++ digits)

/-- The UTC date and time. -/
def Instant.text (t : Instant) : String :=
  let days := t.seconds / 86400
  let second := (t.seconds - days * 86400).toNat
  let date := Date.ofDays days
  let year := if date.year < 0 then "-" ++ padded 6 date.year.natAbs else padded 4 date.year.toNat
  year ++ "-" ++ padded 2 date.month ++ "-" ++ padded 2 date.day ++ "T" ++
    padded 2 (second / 3600) ++ ":" ++ padded 2 (second / 60 % 60) ++ ":" ++
    padded 2 (second % 60) ++ "Z"

end Admission.Time
