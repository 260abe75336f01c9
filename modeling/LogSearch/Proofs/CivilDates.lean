import LogSearch.Proofs.Changes
import Mathlib.Logic.Function.Iterate
import Mathlib.Tactic.Lemma

/-!
# Dates and day numbers

The library computes with day numbers, whereas dates are told apart by year, month and day.  This
module joins the two, for all years and not only for those of the calendar.

* `Date.IsReal` — month and day exist.  `Date.ofDay_toDay`, `Date.isReal_ofDay`: these dates and the
  day numbers are the same thing.
* `Date.next` — the day after a date, by months and leap years alone.  `Date.ofDay_add`: to count
  days is to go from date to date.
* `Date.Before` — the order of dates by year, month and day.  `Date.toDay_lt_iff`: it is the order
  of the day numbers.
* `Date.isValid_ofDay`, `Date.toDay_bounds` — the days of the calendar are those of its years.
-/

namespace LogSearch

-- Sums start from the literal zero, as those of `Date.toDay` do.
attribute [local instance (high)] Zero.ofOfNat0

variable {d e : Date} {day : Int} {n : Nat}

/-! ## Months -/

/-- The next month starts where a month ends, and the next year where December ends. -/
lemma monthEnd_eq {month : Nat} (h₁ : 1 ≤ month) (h₂ : month ≤ 12) (year : Int) :
    yearStart year + monthOffset (isLeap year) month + monthLength year month =
      if month < 12 then yearStart year + monthOffset (isLeap year) (month + 1)
      else yearStart (year + 1) := by
  have hmonths : ∀ leap, ∀ m < 13, 1 ≤ m → monthOffset leap m + (monthLengths leap).getD (m - 1) 0
      = if m < 12 then monthOffset leap (m + 1) else if leap then 366 else 365 := by
    decide
  have hmonth := hmonths (isLeap year) month (by omega) h₁
  rw [yearStart_succ, monthLength]
  generalize isLeap year = leap at hmonth ⊢
  by_cases hlast : month < 12
  · rw [if_pos hlast] at hmonth ⊢
    omega
  · rw [if_neg hlast] at hmonth ⊢
    cases leap <;> simp only [Bool.false_eq_true, ↓reduceIte] at hmonth ⊢ <;> omega

/-- Whole months and days of the next one are passed as such. -/
lemma passMonths_sum_take {lengths : List Nat} {k r : Nat} (h : r < lengths.getD k 0) :
    passMonths lengths ((lengths.take k).sum + r) = (k, r) := by
  induction lengths generalizing k with
  | nil => simp at h
  | cons length lengths ih =>
      cases k with
      | zero =>
          rw [List.getD_cons_zero] at h
          simp [passMonths, h]
      | succ k =>
          rw [List.getD_cons_succ] at h
          rw [List.take_succ_cons, List.sum_cons, passMonths, if_neg (by omega),
            show length + (lengths.take k).sum + r - length = (lengths.take k).sum + r by omega,
            ih h]

/-- Days that do not fill all months are left in one of them. -/
lemma snd_passMonths_lt {lengths : List Nat} {days : Nat} (h : days < lengths.sum) :
    (passMonths lengths days).2 < lengths.getD (passMonths lengths days).1 0 := by
  induction lengths generalizing days with
  | nil => simp at h
  | cons length lengths ih =>
      rw [List.sum_cons] at h
      rw [passMonths]
      split
      · rwa [List.getD_cons_zero]
      · rw [List.getD_cons_succ]
        exact ih (by omega)

/-! ## Dates that exist -/

namespace Date

/-- Month and day of a date exist, in whatever year. -/
structure IsReal (d : Date) : Prop where
  month : 1 ≤ d.month ∧ d.month ≤ 12
  day : 1 ≤ d.day ∧ d.day ≤ monthLength d.year d.month

lemma isValid_iff : d.isValid ↔ d.IsReal ∧ 1 ≤ d.year ∧ d.year ≤ 9999 := by
  simp only [isValid, Bool.and_eq_true, decide_eq_true_eq]
  constructor
  · rintro ⟨⟨⟨⟨⟨hy, hy'⟩, hm⟩, hm'⟩, hd⟩, hd'⟩
    exact ⟨⟨⟨hm, hm'⟩, hd, hd'⟩, hy, hy'⟩
  · rintro ⟨⟨⟨hm, hm'⟩, hd, hd'⟩, hy, hy'⟩
    exact ⟨⟨⟨⟨⟨hy, hy'⟩, hm⟩, hm'⟩, hd⟩, hd'⟩

lemma toDay_eq (d : Date) :
    d.toDay = yearStart d.year + monthOffset (isLeap d.year) d.month + d.day - 1 :=
  rfl

lemma IsReal.toDay_bounds (h : d.IsReal) :
    yearStart d.year ≤ d.toDay ∧ d.toDay < yearStart (d.year + 1) := by
  obtain ⟨⟨hm, hm'⟩, hd, hd'⟩ := h
  have hend := monthEnd_le hm hm' d.year
  rw [toDay_eq]
  omega

lemma IsReal.yearOf_toDay (h : d.IsReal) : yearOf d.toDay = d.year :=
  yearOf_eq h.toDay_bounds.1 h.toDay_bounds.2

/-- **Every date that exists is that of its day number.** -/
theorem ofDay_toDay (h : d.IsReal) : ofDay d.toDay = d := by
  have hyear := h.yearOf_toDay
  obtain ⟨⟨hm, hm'⟩, hd, hd'⟩ := h
  have hrest : (d.toDay - yearStart d.year).toNat
      = ((monthLengths (isLeap d.year)).take (d.month - 1)).sum + (d.day - 1) := by
    unfold toDay
    omega
  rw [ofDay, hyear]
  simp only [hrest]
  rw [passMonths_sum_take (by rw [monthLength] at hd'; omega)]
  simp only [Nat.sub_add_cancel hm, Nat.sub_add_cancel hd]

/-- **The date of a day number exists.** -/
theorem isReal_ofDay (day : Int) : (ofDay day).IsReal := by
  obtain ⟨hlow, hhigh⟩ := yearStart_yearOf day
  have hsum : ∀ leap, (monthLengths leap).sum = if leap then 366 else 365 := by decide
  have hlength : ∀ leap, (monthLengths leap).length = 12 := by decide
  have hdays : (day - yearStart (yearOf day)).toNat < (monthLengths (isLeap (yearOf day))).sum := by
    rw [hsum]
    rw [yearStart_succ] at hhigh
    generalize isLeap (yearOf day) = leap at hhigh ⊢
    cases leap <;> simp only [Bool.false_eq_true, ↓reduceIte] at hhigh ⊢ <;> omega
  have hrest := snd_passMonths_lt hdays
  have hmonth : (passMonths (monthLengths (isLeap (yearOf day)))
      (day - yearStart (yearOf day)).toNat).1 < 12 := by
    by_contra hge
    rw [List.getD_eq_getElem?_getD, List.getElem?_eq_none (by rw [hlength]; omega)] at hrest
    exact absurd hrest (Nat.not_lt_zero _)
  constructor
  · simp only [ofDay]
    omega
  · simp only [ofDay, monthLength, Nat.add_sub_cancel]
    omega

lemma year_ofDay (day : Int) : (ofDay day).year = yearOf day :=
  rfl

/-! ## The next day -/

/-- The day after a date: in the same month, else in the next one, else in the next year. -/
def next (d : Date) : Date :=
  if d.day < monthLength d.year d.month then ⟨d.year, d.month, d.day + 1⟩
  else if d.month < 12 then ⟨d.year, d.month + 1, 1⟩
  else ⟨d.year + 1, 1, 1⟩

lemma IsReal.next (h : d.IsReal) : d.next.IsReal := by
  obtain ⟨⟨hm, hm'⟩, hd, hd'⟩ := h
  rw [Date.next]
  split
  · exact ⟨⟨hm, hm'⟩, by dsimp only; omega⟩
  · split
    · have hlength := monthLength_bounds (isLeap d.year) (d.month + 1) (by omega) (by omega)
      exact ⟨by dsimp only; omega, by rw [monthLength]; dsimp only; omega⟩
    · have hlength := monthLength_bounds (isLeap (d.year + 1)) 1 (by omega) (by omega)
      exact ⟨by dsimp only; omega, by rw [monthLength]; dsimp only; omega⟩

/-- **The next date has the next day number**, over the ends of months and years and at leap
days. -/
theorem toDay_next (h : d.IsReal) : d.next.toDay = d.toDay + 1 := by
  obtain ⟨⟨hm, hm'⟩, hd, hd'⟩ := h
  have hend := monthEnd_eq hm hm' d.year
  have hfirst : ∀ leap, monthOffset leap 1 = 0 := by decide
  rw [Date.next]
  split
  · rw [toDay_eq, toDay_eq]
    dsimp only
    omega
  · split
    · rw [if_pos (by assumption)] at hend
      rw [toDay_eq, toDay_eq]
      dsimp only
      omega
    · rw [if_neg (by assumption)] at hend
      rw [toDay_eq, toDay_eq, hfirst]
      dsimp only
      omega

lemma ofDay_succ (day : Int) : ofDay (day + 1) = (ofDay day).next := by
  have hreal := isReal_ofDay day
  rw [← ofDay_toDay hreal.next, toDay_next hreal, toDay_ofDay]

/-- **To count days is to go from date to date.** -/
theorem ofDay_add (day : Int) (n : Nat) : ofDay (day + n) = next^[n] (ofDay day) := by
  induction n with
  | zero => simp
  | succ n ih =>
      rw [Function.iterate_succ_apply', ← ih, ← ofDay_succ, Int.natCast_succ, Int.add_assoc]

/-! ## The order of dates -/

/-- A date comes before another: by the year, then by the month, then by the day. -/
def Before (d e : Date) : Prop :=
  d.year < e.year ∨ d.year = e.year ∧ (d.month < e.month ∨ d.month = e.month ∧ d.day < e.day)

lemma Before.toDay_lt (h : d.Before e) (hd : d.IsReal) (he : e.IsReal) : d.toDay < e.toDay := by
  have hdays := hd.toDay_bounds
  have hdays' := he.toDay_bounds
  obtain ⟨⟨hm, hm'⟩, -, hend⟩ := hd
  obtain ⟨⟨-, hmonth⟩, hfirst, -⟩ := he
  rw [monthLength] at hend
  rcases h with hyear | ⟨hyear, hlt | ⟨heq, hlt⟩⟩
  · have hmono := yearStart_mono (Int.add_one_le_of_lt hyear)
    omega
  · have hoffset := monthOffset_add_le (isLeap d.year) d.month (by omega) e.month (by omega) hm hlt
    rw [toDay_eq, toDay_eq, ← hyear]
    omega
  · rw [toDay_eq, toDay_eq, ← hyear, ← heq]
    omega

/-- **Dates are in the order of their day numbers.** -/
theorem toDay_lt_iff (hd : d.IsReal) (he : e.IsReal) : d.toDay < e.toDay ↔ d.Before e := by
  refine ⟨fun hlt => ?_, fun h => h.toDay_lt hd he⟩
  by_contra hnot
  have hback : e.Before d ∨ e = d := by
    cases d
    cases e
    simp only [Before, mk.injEq] at hnot ⊢
    omega
  rcases hback with hback | rfl
  · exact absurd (hback.toDay_lt he hd) (by omega)
  · exact absurd hlt (by omega)

/-! ## The calendar -/

/-- The days of the years 1 to 9999. -/
theorem yearOf_bounds_iff : 1 ≤ yearOf day ∧ yearOf day ≤ 9999 ↔ 0 ≤ day ∧ day < calendarDays := by
  obtain ⟨hlow, hhigh⟩ := yearStart_yearOf day
  have hfirst : yearStart 1 = 0 := by decide
  have hend : yearStart 10000 = calendarDays := by decide
  constructor
  · rintro ⟨h₁, h₂⟩
    have hmono := yearStart_mono h₁
    have hmono' := yearStart_mono (show yearOf day + 1 ≤ 10000 by omega)
    omega
  · rintro ⟨h₁, h₂⟩
    constructor
    · by_contra hlt
      have hmono := yearStart_mono (show yearOf day + 1 ≤ 1 by omega)
      omega
    · by_contra hlt
      have hmono := yearStart_mono (show 10000 ≤ yearOf day by omega)
      omega

lemma isValid_ofDay : (ofDay day).isValid ↔ 0 ≤ day ∧ day < calendarDays := by
  rw [isValid_iff, year_ofDay, yearOf_bounds_iff, and_iff_right (isReal_ofDay day)]

lemma toDay_bounds (h : d.isValid) : 0 ≤ d.toDay ∧ d.toDay < calendarDays := by
  rw [← isValid_ofDay, ofDay_toDay (isValid_iff.1 h).1]
  exact h

end Date

end LogSearch
