/-!
# Days and civil dates

Days are counted from 1 January of year 1, which is day 0 and a Monday.  The calendar is the
Gregorian one, carried back without a break, and it ends with year 9999.

* `yearStart` — the day number of 1 January.
* `Date` — a year, a month and a day of the month.
* `Date.toDay`, `Date.ofDay` — the two directions between dates and day numbers; going from a day
  number to its date and back gives the same number (`Date.toDay_ofDay`).
* `dayOfWeek` — Monday is 0.
-/

namespace LogSearch

-- Sums start from the literal zero, whatever algebra is in scope.
attribute [local instance (high)] Zero.ofOfNat0

/-- How many days the years 1 to 9999 have. -/
abbrev calendarDays : Int := 3652059

/-- A date of the Gregorian calendar; months and days count from one. -/
structure Date where
  year : Int
  month : Nat
  day : Nat
  deriving DecidableEq

/-! ## Years and months -/

/-- Every fourth year has a leap day, except full centuries that are not multiples of 400. -/
def isLeap (year : Int) : Bool :=
  year % 4 == 0 && (year % 100 != 0 || year % 400 == 0)

/-- The day number of 1 January. -/
def yearStart (year : Int) : Int :=
  let before := year - 1
  365 * before + before / 4 - before / 100 + before / 400

/-- The year that a day lies in.  A cycle of 400 years has 146097 days; the estimate from the mean
length of a year is at most one off. -/
def yearOf (day : Int) : Int :=
  let year := day * 400 / 146097 + 1
  if day < yearStart year then year - 1
  else if yearStart (year + 1) ≤ day then year + 1
  else year

/-- Years follow one another without a gap. -/
theorem yearStart_succ (year : Int) :
    yearStart (year + 1) = yearStart year + (if isLeap year then 366 else 365) := by
  have h : (isLeap year = true) ↔ (year % 4 = 0 ∧ (year % 100 ≠ 0 ∨ year % 400 = 0)) := by
    simp [isLeap]
  unfold yearStart
  split <;> rename_i hl <;> rw [h] at hl <;> dsimp only <;> omega

/-- A day lies in its year. -/
theorem yearStart_yearOf (day : Int) :
    yearStart (yearOf day) ≤ day ∧ day < yearStart (yearOf day + 1) := by
  unfold yearOf
  simp only
  generalize hy : day * 400 / 146097 + 1 = year
  have h1 : yearStart (year - 1) ≤ day := by unfold yearStart; dsimp only; omega
  have h2 : day < yearStart (year + 2) := by unfold yearStart; dsimp only; omega
  split
  · exact ⟨h1, by rw [Int.sub_add_cancel]; assumption⟩
  · split
    · exact ⟨by assumption, by rw [Int.add_assoc]; exact h2⟩
    · omega

/-- The lengths of the months. -/
def monthLengths (leap : Bool) : List Nat :=
  [31, if leap then 29 else 28, 31, 30, 31, 30, 31, 31, 30, 31, 30, 31]

/-- The length of a month, the first being month 1. -/
def monthLength (year : Int) (month : Nat) : Nat :=
  (monthLengths (isLeap year)).getD (month - 1) 0

/-- How many whole months of the given lengths fit into a number of days, and what is left. -/
def passMonths : List Nat → Nat → Nat × Nat
  | [], days => (0, days)
  | length :: lengths, days =>
    if days < length then (0, days)
    else
      let (months, rest) := passMonths lengths (days - length)
      (months + 1, rest)

/-- The days of the whole months and what is left make up all days. -/
theorem sum_take_passMonths (lengths : List Nat) (days : Nat) :
    (lengths.take (passMonths lengths days).1).sum + (passMonths lengths days).2 = days := by
  induction lengths generalizing days with
  | nil => simp [passMonths]
  | cons length lengths ih =>
    unfold passMonths
    split
    · simp
    · have := ih (days - length)
      simp only [List.take_succ_cons, List.sum_cons]
      omega

/-! ## Dates and day numbers -/

namespace Date

/-- The day number of a date. -/
def toDay (d : Date) : Int :=
  yearStart d.year + ((monthLengths (isLeap d.year)).take (d.month - 1)).sum + d.day - 1

/-- The date of a day number. -/
def ofDay (day : Int) : Date :=
  let year := yearOf day
  let (months, rest) := passMonths (monthLengths (isLeap year)) (day - yearStart year).toNat
  ⟨year, months + 1, rest + 1⟩

/-- Every day number is that of its date. -/
theorem toDay_ofDay (day : Int) : (ofDay day).toDay = day := by
  have hy := yearStart_yearOf day
  have hs := sum_take_passMonths (monthLengths (isLeap (yearOf day)))
    (day - yearStart (yearOf day)).toNat
  simp only [ofDay, toDay, Nat.add_sub_cancel]
  omega

/-- Whether month and day exist and the year is one of 1 to 9999. -/
def isValid (d : Date) : Bool :=
  1 ≤ d.year && d.year ≤ 9999 && 1 ≤ d.month && d.month ≤ 12 && 1 ≤ d.day
    && d.day ≤ monthLength d.year d.month

end Date

/-- The day of the week, Monday being 0. -/
def dayOfWeek (day : Int) : Int :=
  day % 7

/-- The Monday on or before a day. -/
def mondayOf (day : Int) : Int :=
  day - dayOfWeek day

/-- The first day of the month that a day lies in. -/
def monthStartOf (day : Int) : Int :=
  day - (Date.ofDay day).day + 1

end LogSearch
