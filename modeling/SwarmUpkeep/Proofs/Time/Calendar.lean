import Mathlib.Algebra.Ring.Nat
import SwarmUpkeep.Time.Instant

/-!
# Dates and day numbers

`Date.ofDayNumber` gives a valid date, and the number of that date is the day it was made from. A
year is as long as its months together, which ties the two ways of counting days.
-/

namespace SwarmUpkeep

namespace Date

/-- The year that is estimated from the mean length of a year is mended to the one that contains
the day. -/
theorem yearStart_yearOf (day : Int) :
    yearStart (yearOf day) ≤ day ∧ day < yearStart (yearOf day + 1) := by
  simp only [yearOf]
  generalize hestimate : day * 400 / 146097 + 1970 = estimate
  -- The estimate is off by one at most, in either direction.
  have hprevious : yearStart (estimate - 1) ≤ day := by
    simp only [yearStart]
    omega
  have hnext : day < yearStart (estimate + 1 + 1) := by
    simp only [yearStart]
    omega
  split
  next h => exact ⟨hprevious, by rwa [Int.sub_add_cancel]⟩
  next hle =>
    split
    next h => exact ⟨h, hnext⟩
    next hlt => exact ⟨Int.not_lt.mp hle, Int.not_le.mp hlt⟩

/-- A year that starts earlier is an earlier year. -/
theorem lt_of_yearStart_lt {year year' : Int} (h : yearStart year < yearStart year') :
    year < year' := by
  simp only [yearStart] at h
  omega

/-- A valid date has a month of the year and a day that some month has. -/
theorem bounds_of_isValid {date : Date} (h : date.isValid = true) :
    1 ≤ date.month ∧ date.month ≤ 12 ∧ 1 ≤ date.day ∧ date.day ≤ 31 := by
  simp only [isValid, Bool.and_eq_true, decide_eq_true_eq] at h
  obtain ⟨⟨⟨hmonth, hmonths⟩, hday⟩, hdays⟩ := h
  refine ⟨hmonth, hmonths, hday, Nat.le_trans hdays ?_⟩
  have hlengths : ∀ leap, ∀ m < 12, (monthLengths leap).getD m 0 ≤ 31 := by decide
  unfold monthLength
  split
  next => exact Nat.zero_le _
  next m heq => exact hlengths _ m (by omega)

theorem sum_monthLengths (leap : Bool) :
    (monthLengths leap).sum = if leap then 366 else 365 := by
  cases leap <;> rfl

theorem yearStart_succ (year : Int) :
    yearStart (year + 1) = yearStart year + (monthLengths (isLeapYear year)).sum := by
  rw [sum_monthLengths]
  cases hleap : isLeapYear year with
  | true =>
      simp only [isLeapYear, Bool.and_eq_true, Bool.or_eq_true, beq_iff_eq, bne_iff_ne] at hleap
      simp only [yearStart, if_true]
      omega
  | false =>
      simp only [isLeapYear, Bool.and_eq_false_iff, Bool.or_eq_false_iff, beq_eq_false_iff_ne,
        bne_eq_false_iff_eq] at hleap
      simp only [yearStart, Bool.false_eq_true, if_false]
      omega

/-- The month and the day that days passed in a year come to: a month of the list, a day that the
month has, and the days that have passed. -/
theorem monthAndDay_spec {lengths : List Nat} {passed : Nat} (h : passed < lengths.sum) :
    ∃ month day, monthAndDay lengths passed = (month + 1, day) ∧ month < lengths.length ∧
      1 ≤ day ∧ day ≤ lengths.getD month 0 ∧ (lengths.take month).sum + day = passed + 1 := by
  -- Along the months: the first one has the day, or all its days have passed.
  induction lengths generalizing passed with
  | nil => simp at h
  | cons length lengths ih =>
      simp only [List.sum_cons] at h
      unfold monthAndDay
      split
      next hlt => exact ⟨0, passed + 1, rfl, by simp, by omega, hlt, by simp⟩
      next hge =>
        obtain ⟨month, day, heq, hmonth, hleast, hgreatest, hpassed⟩ :=
          @ih (passed - length) (by omega)
        rw [heq]
        refine ⟨month + 1, day, rfl, by simpa using hmonth, hleast, by simpa using hgreatest, ?_⟩
        rw [List.take_succ_cons, List.sum_cons]
        omega

theorem monthStart_succ (leap : Bool) (month : Nat) :
    monthStart leap (month + 1) = ((monthLengths leap).take month).sum :=
  List.sum_eq_foldl.symm

theorem year_ofDayNumber (day : Int) : (ofDayNumber day).year = yearOf day :=
  rfl

/-- Every day has a valid date, and the date has the day's number. -/
theorem ofDayNumber_spec (day : Int) :
    (ofDayNumber day).isValid = true ∧ (ofDayNumber day).dayNumber = day := by
  obtain ⟨hstart, hend⟩ := yearStart_yearOf day
  rw [yearStart_succ] at hend
  have hpassed : (day - yearStart (yearOf day)).toNat <
      (monthLengths (isLeapYear (yearOf day))).sum := by
    omega
  obtain ⟨month, dayOfMonth, heq, hmonth, hleast, hgreatest, hsum⟩ := monthAndDay_spec hpassed
  have htwelve : (monthLengths (isLeapYear (yearOf day))).length = 12 := rfl
  have hdate : ofDayNumber day = ⟨yearOf day, month + 1, dayOfMonth⟩ := by
    simp only [ofDayNumber, heq]
  rw [hdate]
  constructor
  · simp only [isValid, Bool.and_eq_true, decide_eq_true_eq]
    exact ⟨⟨⟨by omega, by omega⟩, hleast⟩, hgreatest⟩
  · simp only [dayNumber, monthStart_succ]
    omega

end Date

namespace Instant

/-- An instant within the bounds lies in a year within the bounds. -/
theorem year_bounds {t : Instant} (h : t.isKept = true) :
    Date.leastYear ≤ t.date.year ∧ t.date.year ≤ Date.greatestYear := by
  obtain ⟨hleast, hgreatest⟩ := Bool.and_eq_true_iff.mp h
  have hleast := of_decide_eq_true hleast
  have hgreatest := of_decide_eq_true hgreatest
  obtain ⟨hstart, hend⟩ := Date.yearStart_yearOf (t.seconds / 86400)
  rw [date, Date.year_ofDayNumber]
  have hfirst : Date.yearStart Date.leastYear <
      Date.yearStart (Date.yearOf (t.seconds / 86400) + 1) := by
    refine Int.lt_of_le_of_lt ?_ hend
    simp only [leastSecond] at hleast
    omega
  have hlast : Date.yearStart (Date.yearOf (t.seconds / 86400)) <
      Date.yearStart (Date.greatestYear + 1) := by
    refine Int.lt_of_le_of_lt hstart ?_
    simp only [greatestSecond] at hgreatest
    omega
  have := Date.lt_of_yearStart_lt hfirst
  have := Date.lt_of_yearStart_lt hlast
  omega

theorem nanos_ofNanos_lt (n : Int) : (ofNanos n).nanos < 1000000000 := by
  simp only [ofNanos]
  omega

/-- Date and second of the day make up the seconds of an instant again. -/
theorem ofDate_date (t : Instant) : ofDate t.date t.secondOfDay t.nanos = t := by
  have hday : t.date.dayNumber = t.seconds / 86400 := (Date.ofDayNumber_spec _).2
  unfold ofDate secondOfDay
  rw [hday]
  have hseconds : t.seconds / 86400 * 86400 + ((t.seconds % 86400).toNat : Int) = t.seconds := by
    omega
  rw [hseconds]

end Instant

end SwarmUpkeep
