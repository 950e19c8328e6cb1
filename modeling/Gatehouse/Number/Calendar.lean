/-!
Civil time from seconds since 1970-01-01 00:00:00 UTC, in the proleptic Gregorian calendar.
-/

namespace Gatehouse

/-- A moment as a calendar and a clock show it. -/
structure CivilTime where
  year : Int
  month : Nat
  day : Nat
  hour : Nat
  minute : Nat
  second : Nat
  deriving DecidableEq, Repr

namespace CivilTime

/-- Year, month and day of the day `days` after 1970-01-01. Years are counted from the first of March, in
eras of 400 years, so that the leap day is the last day of its year. -/
def dateOfDays (days : Int) : Int × Nat × Nat :=
  let shifted := days + 719468
  let era := shifted.fdiv 146097
  let dayOfEra := (shifted - era * 146097).toNat
  let yearOfEra := (dayOfEra - dayOfEra / 1460 + dayOfEra / 36524 - dayOfEra / 146096) / 365
  let dayOfYear := dayOfEra - (365 * yearOfEra + yearOfEra / 4 - yearOfEra / 100)
  let march := (5 * dayOfYear + 2) / 153
  let day := dayOfYear - (153 * march + 2) / 5 + 1
  let month := if march < 10 then march + 3 else march - 9
  (era * 400 + yearOfEra + (if month ≤ 2 then 1 else 0), month, day)

def ofSeconds (seconds : Int) : CivilTime :=
  let days := seconds.fdiv 86400
  let rest := (seconds - days * 86400).toNat
  let (year, month, day) := dateOfDays days
  { year, month, day, hour := rest / 3600, minute := rest / 60 % 60, second := rest % 60 }

def twoDigits (n : Nat) : String :=
  if n < 10 then "0" ++ toString n else toString n

/-- A moment in the form `2026-10-19 14:03:07`. -/
def text (t : CivilTime) : String :=
  toString t.year ++ "-" ++ twoDigits t.month ++ "-" ++ twoDigits t.day ++ " " ++
    twoDigits t.hour ++ ":" ++ twoDigits t.minute ++ ":" ++ twoDigits t.second

/-- What is left behind a text of a form in which a zero stands for any digit, if it begins like this. -/
def afterForm? : (form cs : List Char) → Option (List Char)
  | [], rest => some rest
  | f :: form, c :: rest =>
      if (f == '0' && c.isDigit) || (f != '0' && f == c) then afterForm? form rest else none
  | _ :: _, [] => none

/-- A text with a mark in the place of the first moment in it, so that lines of different times compare. -/
def hidden (mark : String) : List Char → List Char
  | [] => []
  | c :: rest =>
      match afterForm? "0000-00-00 00:00:00".toList (c :: rest) with
      | some after => mark.toList ++ after
      | none => c :: hidden mark rest

end CivilTime

end Gatehouse
