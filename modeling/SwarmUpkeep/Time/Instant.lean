import SwarmUpkeep.Time.Calendar

/-!
# Instants and durations

An instant counts seconds and nanoseconds from 1970-01-01T00:00:00Z. The nanoseconds of a leap
second run from 10⁹ on: such an instant lies within the second that follows the one it names.
-/

namespace SwarmUpkeep

/-- A point of universal time. -/
structure Instant where
  seconds : Int
  nanos : Nat
deriving DecidableEq, Inhabited

namespace Instant

/-- The nanoseconds from 1970-01-01T00:00:00Z. -/
def sinceEpoch (t : Instant) : Int :=
  t.seconds * 1000000000 + t.nanos

def ofNanos (nanos : Int) : Instant :=
  ⟨nanos / 1000000000, (nanos % 1000000000).toNat⟩

def addNanos (t : Instant) (nanos : Int) : Instant :=
  ofNanos (t.sinceEpoch + nanos)

def addSeconds (t : Instant) (seconds : Int) : Instant :=
  { t with seconds := t.seconds + seconds }

/-- Instants are ordered by their seconds and then by their nanoseconds. -/
def before (s t : Instant) : Bool :=
  s.seconds < t.seconds || (s.seconds == t.seconds && s.nanos < t.nanos)

/-- The nanoseconds from one instant to another, negative if that lies before it. -/
def nanosUntil (s t : Instant) : Int :=
  t.sinceEpoch - s.sinceEpoch

/-- The first and the last second for which instants are kept. -/
def leastSecond : Int :=
  Date.yearStart Date.leastYear * 86400

def greatestSecond : Int :=
  Date.yearStart (Date.greatestYear + 1) * 86400 - 1

def isKept (t : Instant) : Bool :=
  leastSecond ≤ t.seconds && t.seconds ≤ greatestSecond

def date (t : Instant) : Date :=
  Date.ofDayNumber (t.seconds / 86400)

/-- The second of the day. -/
def secondOfDay (t : Instant) : Nat :=
  (t.seconds % 86400).toNat

/-- The instant of a date, a second of its day and a number of nanoseconds. -/
def ofDate (date : Date) (secondOfDay nanos : Nat) : Instant :=
  ⟨date.dayNumber * 86400 + secondOfDay, nanos⟩

theorem sinceEpoch_ofNanos (n : Int) : (ofNanos n).sinceEpoch = n := by
  simp only [ofNanos, sinceEpoch]
  omega

end Instant

end SwarmUpkeep
