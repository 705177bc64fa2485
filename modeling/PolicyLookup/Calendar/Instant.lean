/-
  PolicyLookup.Calendar.Instant — points in time as texts.

  A time is a number of milliseconds since 1970-01-01T00:00:00Z and is written in UTC as
  `year-month-dayThh:mm:ss.fffZ` in the proleptic Gregorian calendar.  A year outside 0 to 9999
  has a sign; every year has four digits at least.
-/

import PolicyLookup.Number.Digits

namespace PolicyLookup.Calendar

/-- A day of the proleptic Gregorian calendar. -/
structure Date where
  year : Int
  month : Nat
  day : Nat
deriving DecidableEq, Inhabited

/-- The date that lies the given number of days after 1970-01-01.  Days are counted in cycles of
400 years that begin on a first of March, so that the day of a leap year is the last one. -/
def Date.ofDays (days : Int) : Date :=
  let shifted := days + 719468
  let cycle := shifted / 146097
  let dayOfCycle := (shifted % 146097).toNat
  let yearOfCycle :=
    (dayOfCycle - dayOfCycle / 1460 + dayOfCycle / 36524 - dayOfCycle / 146096) / 365
  let dayOfYear := dayOfCycle - (365 * yearOfCycle + yearOfCycle / 4 - yearOfCycle / 100)
  let monthFromMarch := (5 * dayOfYear + 2) / 153
  let day := dayOfYear - (153 * monthFromMarch + 2) / 5 + 1
  let month := if monthFromMarch < 10 then monthFromMarch + 3 else monthFromMarch - 9
  let year := cycle * 400 + yearOfCycle
  { year := if month ≤ 2 then year + 1 else year, month, day }

/-- A number with zeros in front up to the given width. -/
def padded (width n : Nat) : List Char :=
  let ds := Number.digits n
  List.replicate (width - ds.length) '0' ++ ds

/-- The text of a year. -/
def yearChars (year : Int) : List Char :=
  if 0 ≤ year ∧ year ≤ 9999 then padded 4 year.toNat
  else (if year < 0 then '-' else '+') :: padded 4 year.natAbs

/-- The milliseconds of a day. -/
def dayLength : Int := 86400000

/-- The times that have a text. -/
def isRepresentable (ms : Int) : Bool :=
  decide (-8334601228800000 ≤ ms) && decide (ms ≤ 8210266876799999)

/-- The text of a time, to the millisecond. -/
def instantChars (ms : Int) : List Char :=
  let date := Date.ofDays (ms / dayLength)
  let ofDay := (ms % dayLength).toNat
  yearChars date.year ++ '-' :: padded 2 date.month ++ '-' :: padded 2 date.day
    ++ 'T' :: padded 2 (ofDay / 3600000) ++ ':' :: padded 2 (ofDay / 60000 % 60)
    ++ ':' :: padded 2 (ofDay / 1000 % 60) ++ '.' :: padded 3 (ofDay % 1000) ++ ['Z']

end PolicyLookup.Calendar
