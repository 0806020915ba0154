/-!
# The civil calendar

Dates of the proleptic Gregorian calendar and their numbers: day 0 is 1970-01-01, and each day is
one more than the day before. `Date.ofDayNumber` inverts `Date.dayNumber` by taking the last year
that has begun, and in it the last month that has begun.
-/

namespace SwarmUpkeep

/-- A year, a month from 1 and a day from 1. -/
structure Date where
  year : Int
  month : Nat
  day : Nat
deriving DecidableEq, Inhabited

namespace Date

def isLeapYear (year : Int) : Bool :=
  year % 4 == 0 && (year % 100 != 0 || year % 400 == 0)

/-- The lengths of the twelve months. -/
def monthLengths (leap : Bool) : List Nat :=
  [31, if leap then 29 else 28, 31, 30, 31, 30, 31, 31, 30, 31, 30, 31]

/-- The length of a month, and zero for a number that is no month. -/
def monthLength (year : Int) (month : Nat) : Nat :=
  match month with
  | 0 => 0
  | m + 1 => (monthLengths (isLeapYear year)).getD m 0

/-- The number of a year's first day. Each year before it had 365 days and, by the three rules for
leap years, some had one more. -/
def yearStart (year : Int) : Int :=
  let before := year - 1
  365 * before + before / 4 - before / 100 + before / 400 - 719162

/-- Days from the start of the year to the start of the month. -/
def monthStart (leap : Bool) (month : Nat) : Nat :=
  ((monthLengths leap).take (month - 1)).foldl (· + ·) 0

def dayNumber (date : Date) : Int :=
  yearStart date.year + monthStart (isLeapYear date.year) date.month + date.day - 1

/-- The last year that has begun on the day of this number. An estimate from the mean length of a
year is off by one at most. -/
def yearOf (day : Int) : Int :=
  let estimate := (day * 400) / 146097 + 1970
  if day < yearStart estimate then estimate - 1
  else if yearStart (estimate + 1) ≤ day then estimate + 1
  else estimate

/-- The month and the day of the month, from the days that have passed in the year. -/
def monthAndDay : List Nat → Nat → Nat × Nat
  | [], rest => (0, rest)
  | length :: lengths, rest =>
      if rest < length then (1, rest + 1)
      else
        let (month, day) := monthAndDay lengths (rest - length)
        (month + 1, day)

/-- The date of a day number. -/
def ofDayNumber (day : Int) : Date :=
  let year := yearOf day
  let (month, dayOfMonth) := monthAndDay (monthLengths (isLeapYear year))
    (day - yearStart year).toNat
  ⟨year, month, dayOfMonth⟩

/-- A month of the year and a day that the month has. -/
def isValid (date : Date) : Bool :=
  1 ≤ date.month && date.month ≤ 12 && 1 ≤ date.day &&
    date.day ≤ monthLength date.year date.month

/-- The years for which instants are kept. -/
def leastYear : Int := -262143

def greatestYear : Int := 262142

example : (Date.mk 1970 1 1).dayNumber = 0 := by decide
example : (Date.mk 2000 2 29).dayNumber = 11016 := by decide
example : ofDayNumber 11016 = ⟨2000, 2, 29⟩ := by decide
example : ofDayNumber (-1) = ⟨1969, 12, 31⟩ := by decide

end Date

end SwarmUpkeep
