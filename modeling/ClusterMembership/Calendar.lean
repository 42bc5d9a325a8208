/-!
# Dates

A point in time is counted in seconds since the start of 1970, without leap
seconds, and shown as a date of the Gregorian calendar, extended to all years.
-/

namespace ClusterMembership

/-- A point in universal time. -/
structure Timestamp where
  /-- Seconds since the start of 1970. -/
  seconds : Int
  nanoseconds : Nat := 0
  deriving DecidableEq, Inhabited, Repr

/-- A date of the Gregorian calendar. -/
structure Date where
  year : Int
  month : Nat
  day : Nat
  deriving DecidableEq, Inhabited, Repr

namespace Date

/--
The date of a day, counted from the first of January 1970.  Years are counted from
March, in eras of 400 years, so that the leap day is the last day of a year.
-/
def ofDays (days : Int) : Date :=
  let shifted := days + 719468
  let era := shifted.fdiv 146097
  let dayOfEra := (shifted.fmod 146097).toNat
  let yearOfEra :=
    (dayOfEra - dayOfEra / 1460 + dayOfEra / 36524 - dayOfEra / 146096) / 365
  let dayOfYear := dayOfEra - (365 * yearOfEra + yearOfEra / 4 - yearOfEra / 100)
  let monthFromMarch := (5 * dayOfYear + 2) / 153
  let month := if monthFromMarch < 10 then monthFromMarch + 3 else monthFromMarch - 9
  let year : Int := yearOfEra + era * 400
  { year := if month ≤ 2 then year + 1 else year
    month
    day := dayOfYear - (153 * monthFromMarch + 2) / 5 + 1 }

end Date

/-- A number in decimal digits, with zeros in front up to a width. -/
def padded (width value : Nat) : String :=
  let digits := toString value
  String.ofList (List.replicate (width - digits.length) '0') ++ digits

/-- A year: four digits, or a sign and at least four digits outside of 0 to 9999. -/
def yearText (year : Int) : String :=
  if 0 ≤ year ∧ year ≤ 9999 then
    padded 4 year.toNat
  else
    (if year < 0 then "-" else "+") ++ padded 4 year.natAbs

namespace Timestamp

/-- How many digits of the second's fraction are written. -/
inductive Precision where
  /-- Always three. -/
  | milliseconds
  /-- None, three, six or nine: the fewest that lose nothing. -/
  | exact
  deriving DecidableEq, Inhabited, Repr

/-- The fraction of the second, with the point in front of it. -/
def fractionText (precision : Precision) (nanoseconds : Nat) : String :=
  match precision with
  | .milliseconds => "." ++ padded 3 (nanoseconds / 1000000)
  | .exact =>
    if nanoseconds = 0 then ""
    else if nanoseconds % 1000000 = 0 then "." ++ padded 3 (nanoseconds / 1000000)
    else if nanoseconds % 1000 = 0 then "." ++ padded 6 (nanoseconds / 1000)
    else "." ++ padded 9 nanoseconds

/-- The date and the time of day; nanoseconds past the second belong to a leap second. -/
def text (timestamp : Timestamp) (precision : Precision) : String :=
  let date := Date.ofDays (timestamp.seconds.fdiv 86400)
  let second := (timestamp.seconds.fmod 86400).toNat
  let leap := timestamp.nanoseconds / 1000000000
  yearText date.year ++ "-" ++ padded 2 date.month ++ "-" ++ padded 2 date.day ++ "T" ++
    padded 2 (second / 3600) ++ ":" ++ padded 2 (second / 60 % 60) ++ ":" ++
    padded 2 (second % 60 + leap) ++
    fractionText precision (timestamp.nanoseconds % 1000000000) ++ "Z"

end Timestamp

end ClusterMembership
