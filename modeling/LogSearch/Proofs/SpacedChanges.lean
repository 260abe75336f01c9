import LogSearch.Proofs.Changes
import Mathlib.Tactic.ByContra
import Mathlib.Tactic.Lemma

/-!
# Clocks whose changes are days apart

Between two changes of the clock that lie more than two days apart the larger lead cannot come and
go within a few hours.  The rules of a zone say this of its yearly changes, but which changes count
is decided by the year in UTC: at the new year of UTC the clock may be changed without a rule, if a
change belongs to a year in local time and to its neighbour in UTC.

* `ChangeDay.day_succ` — a yearly change comes again no earlier than after 52 weeks.
* `Change.InItsYear` — a change that does not leave its year on the clock that it is read from, as
  hardly any does at an hour from 0 to 24 (`Change.inItsYear_of_time`).
* `Daylight.Spaced` — daylight time by such changes, more than two days apart.
* `Zone.Alternates` — the two changes by what they do to the clock, so that daylight time may be
  ahead of the standard one or behind it.
* `Zone.Alternates.lead_eq_least` — around a midnight the larger lead does not come and go: not
  within a year, nor at a new year, where each of the two changes that would be needed has a partner
  in its own year that it would come too close to.
-/

namespace LogSearch

-- Sums start from the literal zero, as those of `Date.toDay` do.
attribute [local instance (high)] Zero.ofOfNat0

variable {z : Zone} {d : Daylight} {rule : ChangeDay} {c forward back : Change}
  {since year day t w x y : Int} {month week : Nat}

/-! ## Changes from year to year -/

/-- A year has at least 365 days and at most 366. -/
lemma yearStart_succ_bounds (year : Int) :
    yearStart year + 365 ≤ yearStart (year + 1) ∧ yearStart (year + 1) ≤ yearStart year + 366 := by
  rw [yearStart_succ]
  split <;> omega

namespace ChangeDay

/-- The first of the seven days of a year of which one is a given weekday of a month, counted from 1
January as day 0. -/
def firstDay (month week : Nat) (leap : Bool) : Nat :=
  if week < 5 then monthOffset leap month + 7 * (week - 1)
  else monthOffset leap month + (monthLengths leap).getD (month - 1) 0 - 7

lemma firstDay_le (h₁ : 1 ≤ month) (h₂ : month ≤ 12) (week : Nat) (leap leap' : Bool) :
    firstDay month week leap ≤ firstDay month week leap' + 1 := by
  have hmonths : ∀ leap leap', ∀ m < 13, 1 ≤ m → monthOffset leap m ≤ monthOffset leap' m + 1 ∧
      monthOffset leap m + (monthLengths leap).getD (m - 1) 0
        ≤ monthOffset leap' m + (monthLengths leap').getD (m - 1) 0 + 1 := by
    decide
  have hmonth := hmonths leap leap' month (by omega) h₁
  unfold firstDay
  split <;> omega

lemma firstDay_bounds (h₁ : 1 ≤ month) (h₂ : month ≤ 12) (hw : 1 ≤ week) (n : Nat) (year : Int) :
    yearStart year + firstDay month week (isLeap year) ≤ (weekday month week n).day year ∧
      (weekday month week n).day year < yearStart year + firstDay month week (isLeap year) + 7 := by
  have hlen := monthLength_bounds (isLeap year) month (by omega) h₁
  unfold firstDay day monthLength Date.toDay monthOffset
  dsimp only
  split <;> omega

/-- A weekday is counted from Sunday here, and from Monday in the week of a day. -/
lemma dayOfWeek_weekday (month week n : Nat) (year : Int) :
    dayOfWeek ((weekday month week n).day year) = ((n : Int) + 6) % 7 := by
  unfold day dayOfWeek
  dsimp only
  omega

/-- **A yearly change comes again no earlier than after 52 weeks.** -/
theorem day_succ (h : rule.isPosix) (year : Int) : rule.day year + 364 ≤ rule.day (year + 1) := by
  have hlength := yearStart_succ_bounds year
  cases rule with
  | weekday month week n =>
      simp only [isPosix, Bool.and_eq_true, decide_eq_true_eq] at h
      obtain ⟨⟨⟨⟨h₁, h₂⟩, hw⟩, -⟩, -⟩ := h
      have hnow := firstDay_bounds h₁ h₂ hw n year
      have hnext := firstDay_bounds h₁ h₂ hw n (year + 1)
      have hle := firstDay_le h₁ h₂ week (isLeap year) (isLeap (year + 1))
      have hweekday := dayOfWeek_weekday month week n year
      have hweekday' := dayOfWeek_weekday month week n (year + 1)
      unfold dayOfWeek at hweekday hweekday'
      omega
  | commonDay n =>
      unfold day
      dsimp only
      split <;> split <;> omega
  | yearDay n =>
      unfold day
      dsimp only
      omega

end ChangeDay

namespace Change

/-- A change that does not leave its year: the clock in force before it shows a time of that year,
or the midnight that the year ends with.  At hours from 0 to 24 nearly all changes are such
(`inItsYear_of_time`); one at half past midnight after 31 December is not. -/
structure InItsYear (c : Change) : Prop where
  isPosix : c.rule.isPosix
  inYear : ∀ year, 86400 * yearStart year ≤ c.seconds year ∧
    c.seconds year ≤ 86400 * yearStart (year + 1)

/-- **A change at an hour from 0 to 24 does not leave its year**, unless it is on the 366th day,
which most years do not have. -/
theorem inItsYear_of_time (h : c.rule.isPosix) (hlast : c.rule ≠ .yearDay 365)
    (htime : 0 ≤ c.time ∧ c.time ≤ 86400) : c.InItsYear := by
  refine ⟨h, fun year => ?_⟩
  obtain ⟨hfirst, hbefore⟩ := ChangeDay.day_bounds h year
  have hbefore := hbefore hlast
  unfold seconds day
  omega

/-- A change comes again no earlier than after 364 days. -/
lemma InItsYear.seconds_succ (h : c.InItsYear) (year : Int) :
    c.seconds year + 86400 * 364 ≤ c.seconds (year + 1) := by
  have hsucc := ChangeDay.day_succ h.isPosix year
  unfold seconds day
  omega

end Change

/-! ## The two changes of a zone -/

/-- All starts of daylight time are more than two days away from all its ends. -/
def Daylight.Apart (d : Daylight) (standard : Int) : Prop :=
  ∀ year year', d.startInstant standard year + 2 * dayLength < d.endInstant year' ∨
    d.endInstant year' + 2 * dayLength < d.startInstant standard year

/-- Daylight time starts and ends by changes that do not leave their years, and that lie apart. -/
structure Daylight.Spaced (d : Daylight) (standard : Int) : Prop where
  starts : d.starts.InItsYear
  ends : d.ends.InItsYear
  apart : d.Apart standard

/-- Plain changes at an hour from 0 to 24 that lie four weeks apart are spaced. -/
lemma Daylight.spaced_of_isPlain {standard : Int} (hs : d.starts.IsPlain) (he : d.ends.IsPlain)
    (hs' : d.starts.InItsYear) (he' : d.ends.InItsYear)
    (hapart : (∀ year, d.starts.day year + 28 ≤ d.ends.day year) ∨
      ∀ year, d.ends.day year + 28 ≤ d.starts.day year)
    (hstime : 0 ≤ d.starts.time ∧ d.starts.time ≤ 86400)
    (hetime : 0 ≤ d.ends.time ∧ d.ends.time ≤ 86400)
    (hstd : -86400 < standard ∧ standard < 86400) (hoff : -86400 < d.offset ∧ d.offset < 86400) :
    d.Spaced standard := by
  refine ⟨hs', he', fun year year' => ?_⟩
  have hsday := hs.afterJanuary year
  have hsday' := hs.beforeDecember year
  have heday := he.afterJanuary year'
  have heday' := he.beforeDecember year'
  unfold Daylight.startInstant Daylight.endInstant Change.seconds second dayLength
  rcases Int.lt_trichotomy year year' with hlt | rfl | hgt
  · have := yearStart_mono (Int.add_one_le_of_lt hlt)
    omega
  · rcases hapart with hlt | hlt
    · have := hlt year
      omega
    · have := hlt year
      omega
  · have := yearStart_mono (Int.add_one_le_of_lt hgt)
    omega

namespace Zone

/-- The instant at which a change puts the clock forward, from the smaller lead to the larger. -/
def forwardAt (z : Zone) (c : Change) (year : Int) : Int :=
  c.seconds year * second - z.least

/-- The instant at which a change puts the clock back, from the larger lead to the smaller. -/
def backAt (z : Zone) (c : Change) (year : Int) : Int :=
  c.seconds year * second - z.most

lemma second_dvd_forwardAt (z : Zone) (c : Change) (year : Int) : second ∣ z.forwardAt c year :=
  Int.dvd_sub (Int.dvd_mul_left ..) z.second_dvd_least

/-- One change puts the clock forward in every year, and another one puts it back, more than two
days apart.  Where it is put back before it is put forward, the larger lead spans the new year.
Before the year `since` the changes of that year count. -/
structure Alternates (z : Zone) (since : Int) (forward back : Change) : Prop where
  forward_inItsYear : forward.InItsYear
  back_inItsYear : back.InItsYear
  apart : ∀ year year', z.forwardAt forward year + 2 * dayLength < z.backAt back year' ∨
    z.backAt back year' + 2 * dayLength < z.forwardAt forward year
  lead_eq_most_iff : ∀ t, z.lead t = z.most ↔
    if z.forwardAt forward (max since (yearOfTime t))
        ≤ z.backAt back (max since (yearOfTime t)) then
      z.forwardAt forward (max since (yearOfTime t)) ≤ t ∧
        t < z.backAt back (max since (yearOfTime t))
    else t < z.backAt back (max since (yearOfTime t)) ∨
      z.forwardAt forward (max since (yearOfTime t)) ≤ t

lemma most_and_least_eq (hd : z.daylight = some d) :
    z.most = max z.standard d.offset * second ∧ z.least = min z.standard d.offset * second := by
  unfold most least
  rw [hd]
  exact ⟨rfl, rfl⟩

/-- If daylight time is ahead, the larger lead is that of daylight time. -/
lemma lead_eq_most_iff_inForce (hd : z.daylight = some d) (hahead : z.standard < d.offset) :
    z.lead t = z.most ↔ d.inForce z.standard t = true := by
  rw [(most_and_least_eq hd).1, lead_of_inForce hd]
  unfold second
  by_cases hin : d.inForce z.standard t = true
  · rw [if_pos hin]
    exact iff_of_true (by omega) hin
  · rw [if_neg hin]
    exact iff_of_false (by omega) hin

/-- If daylight time is behind, the larger lead is that of standard time. -/
lemma lead_eq_most_iff_not_inForce (hd : z.daylight = some d) (hbehind : d.offset < z.standard) :
    z.lead t = z.most ↔ ¬ d.inForce z.standard t = true := by
  rw [(most_and_least_eq hd).1, lead_of_inForce hd]
  unfold second
  by_cases hin : d.inForce z.standard t = true
  · rw [if_pos hin]
    exact iff_of_false (by omega) (not_not_intro hin)
  · rw [if_neg hin]
    exact iff_of_true (by omega) hin

/-- Daylight time may be ahead of the standard one or behind it. -/
lemma alternates_of_spaced (hd : z.daylight = some d) (h : d.Spaced z.standard)
    (hlt : z.least < z.most) :
    z.Alternates d.since d.starts d.ends ∨ z.Alternates d.since d.ends d.starts := by
  have hleads := most_and_least_eq hd
  have hforce : ∀ t, d.inForce z.standard t = true ↔
      if d.startInstant z.standard (max d.since (yearOfTime t))
          ≤ d.endInstant (max d.since (yearOfTime t)) then
        d.startInstant z.standard (max d.since (yearOfTime t)) ≤ t ∧
          t < d.endInstant (max d.since (yearOfTime t))
      else t < d.endInstant (max d.since (yearOfTime t)) ∨
        d.startInstant z.standard (max d.since (yearOfTime t)) ≤ t := by
    intro t
    unfold Daylight.inForce Daylight.ruleYear yearOfTime
    dsimp only
    split <;> simp
  obtain ⟨hstarts, hends, hapart⟩ := h
  rcases Int.lt_or_le z.standard d.offset with hahead | hbehind
  · have hforward : z.forwardAt d.starts = d.startInstant z.standard := by
      funext year
      unfold forwardAt Daylight.startInstant second at *
      omega
    have hback : z.backAt d.ends = d.endInstant := by
      funext year
      unfold backAt Daylight.endInstant second at *
      omega
    refine Or.inl ⟨hstarts, hends, ?_, fun t => ?_⟩
    · rw [hforward, hback]
      exact hapart
    · rw [lead_eq_most_iff_inForce hd hahead, hforce, hforward, hback]
  · have hforward : z.forwardAt d.ends = d.endInstant := by
      funext year
      unfold forwardAt Daylight.endInstant second at *
      omega
    have hback : z.backAt d.starts = d.startInstant z.standard := by
      funext year
      unfold backAt Daylight.startInstant second at *
      omega
    refine Or.inr ⟨hends, hstarts, fun year year' => ?_, fun t => ?_⟩
    · rw [hforward, hback]
      exact (hapart year' year).symm
    · -- the larger lead is there where daylight time is not in force
      have hstrict : d.offset < z.standard := by
        unfold second at hleads
        omega
      have hne := hapart (max d.since (yearOfTime t)) (max d.since (yearOfTime t))
      rw [lead_eq_most_iff_not_inForce hd hstrict, hforce, hforward, hback]
      unfold dayLength at hne
      split <;> split <;> omega

/-! ## Within a year -/

lemma yearOfTime_eq (h₁ : yearStart year * dayLength ≤ t)
    (h₂ : t < yearStart (year + 1) * dayLength) : yearOfTime t = year := by
  unfold yearOfTime
  exact yearOf_eq (by unfold dayLength at *; omega) (by unfold dayLength at *; omega)

lemma yearStart_yearOfTime (t : Int) : yearStart (yearOfTime t) * dayLength ≤ t ∧
    t < yearStart (yearOfTime t + 1) * dayLength := by
  have h := yearStart_yearOf (t / dayLength)
  unfold yearOfTime dayLength at *
  omega

lemma yearOfTime_mono (h : x ≤ y) : yearOfTime x ≤ yearOfTime y := by
  have hx := yearStart_yearOfTime x
  have hy := yearStart_yearOfTime y
  by_contra hlt
  have hmono := yearStart_mono (Int.add_one_le_of_lt (Int.not_le.1 hlt))
  unfold dayLength at *
  omega

namespace Alternates

/-- From the smaller lead to the larger one the clock is put forward. -/
lemma forwardAt_between (h : z.Alternates since forward back) (hlt : z.least < z.most)
    (hx : z.lead x = z.least) (ht : z.lead t = z.most) (hle : x ≤ t)
    (hyear : max since (yearOfTime x) = year) (hyear' : max since (yearOfTime t) = year) :
    x < z.forwardAt forward year ∧ z.forwardAt forward year ≤ t := by
  have hx' := h.lead_eq_most_iff x
  have ht' := h.lead_eq_most_iff t
  rw [hyear] at hx'
  rw [hyear'] at ht'
  by_cases horder : z.forwardAt forward year ≤ z.backAt back year
  · rw [if_pos horder] at hx' ht'
    omega
  · rw [if_neg horder] at hx' ht'
    omega

/-- From the larger lead to the smaller one the clock is put back. -/
lemma backAt_between (h : z.Alternates since forward back) (hlt : z.least < z.most)
    (ht : z.lead t = z.most) (hy : z.lead y = z.least) (hle : t ≤ y)
    (hyear : max since (yearOfTime t) = year) (hyear' : max since (yearOfTime y) = year) :
    t < z.backAt back year ∧ z.backAt back year ≤ y := by
  have ht' := h.lead_eq_most_iff t
  have hy' := h.lead_eq_most_iff y
  rw [hyear] at ht'
  rw [hyear'] at hy'
  by_cases horder : z.forwardAt forward year ≤ z.backAt back year
  · rw [if_pos horder] at ht' hy'
    omega
  · rw [if_neg horder] at ht' hy'
    omega

/-- Where the larger lead spans the new year, the smaller one lies between the two changes. -/
lemma between_of_lead_eq_least (h : z.Alternates since forward back) (hlt : z.least < z.most)
    (ht : z.lead t = z.least) (hyear : max since (yearOfTime t) = year)
    (horder : z.backAt back year < z.forwardAt forward year) :
    z.backAt back year ≤ t ∧ t < z.forwardAt forward year := by
  have ht' := h.lead_eq_most_iff t
  rw [hyear, if_neg (Int.not_le.2 horder)] at ht'
  omega

/-- While the changes of one year count, the larger lead does not come and go within two days. -/
lemma lead_eq_least_of_year_eq (h : z.Alternates since forward back) (hlt : z.least < z.most)
    (hx : z.lead x = z.least) (hy : z.lead y = z.least) (hxt : x ≤ t) (hty : t ≤ y)
    (hxy : y - x ≤ 2 * dayLength)
    (hyear : max since (yearOfTime x) = max since (yearOfTime y)) : z.lead t = z.least := by
  refine (z.lead_eq t).resolve_left fun ht => ?_
  have hxt' := yearOfTime_mono hxt
  have hty' := yearOfTime_mono hty
  have hyear' : max since (yearOfTime t) = max since (yearOfTime x) := by omega
  have hforward := h.forwardAt_between hlt hx ht hxt rfl hyear'
  have hback := h.backAt_between hlt ht hy hty hyear' hyear.symm
  have hapart := h.apart (max since (yearOfTime x)) (max since (yearOfTime x))
  omega

/-! ## At a new year -/

lemma forwardAt_bounds (h : z.Alternates since forward back) (year : Int) :
    yearStart year * dayLength - z.least ≤ z.forwardAt forward year ∧
      z.forwardAt forward year ≤ yearStart (year + 1) * dayLength - z.least := by
  have hbounds := h.forward_inItsYear.inYear year
  unfold forwardAt second dayLength
  omega

lemma backAt_bounds (h : z.Alternates since forward back) (year : Int) :
    yearStart year * dayLength - z.most ≤ z.backAt back year ∧
      z.backAt back year ≤ yearStart (year + 1) * dayLength - z.most := by
  have hbounds := h.back_inItsYear.inYear year
  unfold backAt second dayLength
  omega

/-- From year to year the clock is put back no earlier than after 364 days. -/
lemma backAt_succ (h : z.Alternates since forward back) (year : Int) :
    z.backAt back (year - 1) + 364 * dayLength ≤ z.backAt back year := by
  have hsucc := h.back_inItsYear.seconds_succ (year - 1)
  rw [Int.sub_add_cancel] at hsucc
  unfold backAt second dayLength
  omega

/-- From year to year the clock is put forward no earlier than after 364 days. -/
lemma forwardAt_succ (h : z.Alternates since forward back) (year : Int) :
    z.forwardAt forward (year - 1) + 364 * dayLength ≤ z.forwardAt forward year := by
  have hsucc := h.forward_inItsYear.seconds_succ (year - 1)
  rw [Int.sub_add_cancel] at hsucc
  unfold forwardAt second dayLength
  omega

/-- The larger lead does not start with a new year in UTC only to end a few hours later: the clock
is put back on 1 January then, and in the year before in the first days of January, which is too
early for it to be put forward in time. -/
lemma lead_eq_least_after_new_year (h : z.Alternates since forward back) (hlt : z.least < z.most)
    (hsince : since < year)
    (hnear : z.most - z.least < dayLength) (hw : yearStart year * dayLength - 1000 ≤ w)
    (hw' : w ≤ yearStart year * dayLength) (hx : z.lead (w - z.most) = z.least)
    (hy : z.lead (w - z.least) = z.least) (hbefore : w - z.most < yearStart year * dayLength)
    (hafter : yearStart year * dayLength ≤ t) (hty : t ≤ w - z.least) : z.lead t = z.least := by
  refine (z.lead_eq t).resolve_left fun ht => ?_
  have hlength := yearStart_succ_bounds year
  have hlength' := yearStart_succ_bounds (year - 1)
  have hforward := h.forwardAt_bounds year
  have hforward' := h.forwardAt_bounds (year - 1)
  rw [Int.sub_add_cancel] at hlength' hforward'
  have hapart := h.apart year year
  have hapart' := h.apart (year - 1) (year - 1)
  have hneighbours := h.apart (year - 1) year
  unfold dayLength at *
  have hxyear : yearOfTime (w - z.most) = year - 1 :=
    yearOfTime_eq (by unfold dayLength; omega) (by rw [Int.sub_add_cancel]; exact hbefore)
  have htyear : yearOfTime t = year := yearOfTime_eq hafter (by unfold dayLength; omega)
  have hyyear : yearOfTime (w - z.least) = year :=
    yearOfTime_eq (by unfold dayLength; omega) (by unfold dayLength; omega)
  have hback := h.backAt_between hlt ht hy hty (show max since (yearOfTime t) = year by omega)
    (by omega)
  have hyearly := h.backAt_succ year
  unfold dayLength at hyearly
  have hspans : z.backAt back (year - 1) < z.forwardAt forward (year - 1) := by omega
  have hlast := h.between_of_lead_eq_least hlt hx (by omega) hspans
  omega

/-- The larger lead does not start in the last hours of a year only to end with that year in UTC:
the clock is put forward on 31 December then, and in the year after in the last days of December,
which is too late for it to be put back in time. -/
lemma lead_eq_least_before_new_year (h : z.Alternates since forward back) (hlt : z.least < z.most)
    (hsince : since < year)
    (hnear : z.most - z.least < dayLength) (hw : yearStart year * dayLength - 1000 ≤ w)
    (hw' : w ≤ yearStart year * dayLength) (hx : z.lead (w - z.most) = z.least)
    (hy : z.lead (w - z.least) = z.least) (hxt : w - z.most ≤ t)
    (hbefore : t < yearStart year * dayLength)
    (hafter : yearStart year * dayLength ≤ w - z.least) : z.lead t = z.least := by
  refine (z.lead_eq t).resolve_left fun ht => ?_
  have hlength := yearStart_succ_bounds year
  have hlength' := yearStart_succ_bounds (year - 1)
  have hback := h.backAt_bounds year
  rw [Int.sub_add_cancel] at hlength'
  have hapart := h.apart year year
  have hneighbours := h.apart (year - 1) year
  unfold dayLength at *
  have hyyear : yearOfTime (w - z.least) = year :=
    yearOfTime_eq hafter (by unfold dayLength; omega)
  have hxyear : yearOfTime (w - z.most) = year - 1 :=
    yearOfTime_eq (by unfold dayLength; omega)
      (by rw [Int.sub_add_cancel]; unfold dayLength; omega)
  have htyear : yearOfTime t = year - 1 :=
    yearOfTime_eq (by unfold dayLength; omega) (by rw [Int.sub_add_cancel]; exact hbefore)
  have hforward := h.forwardAt_between hlt hx ht hxt
    (show max since (yearOfTime (w - z.most)) = year - 1 by omega) (by omega)
  -- all changes are at whole seconds, and so is the new year
  have hsecond := z.second_dvd_forwardAt forward (year - 1)
  have hmost := z.second_dvd_most
  have hleast := z.second_dvd_least
  unfold second at hsecond hmost hleast
  have hyearly := h.forwardAt_succ year
  unfold dayLength at hyearly
  have hspans : z.backAt back year < z.forwardAt forward year := by omega
  have hfirst := h.between_of_lead_eq_least hlt hy (by omega) hspans
  omega

/-- **Around a midnight the larger lead does not come and go.**  If the clock has the smaller lead
at the two instants at which it may show a midnight, or the last millisecond before one, then it has
that lead in between. -/
theorem lead_eq_least (h : z.Alternates since forward back) (hz : z.WithinDay)
    (hlt : z.least < z.most) (hnear : z.most - z.least < dayLength)
    (hw : day * dayLength - 1000 ≤ w)
    (hw' : w ≤ day * dayLength) (hx : z.lead (w - z.most) = z.least)
    (hy : z.lead (w - z.least) = z.least) (hxt : w - z.most ≤ t) (hty : t ≤ w - z.least) :
    z.lead t = z.least := by
  by_cases hyear : max since (yearOfTime (w - z.most)) = max since (yearOfTime (w - z.least))
  · exact h.lead_eq_least_of_year_eq hlt hx hy hxt hty (by unfold dayLength at *; omega) hyear
  · obtain ⟨hafter, hafter'⟩ := yearStart_yearOfTime (w - z.least)
    have hmono := yearOfTime_mono (Int.le_trans hxt hty)
    generalize yearOfTime (w - z.least) = year at hyear hafter hafter' hmono
    have hsince : since < year := by omega
    have hbefore : w - z.most < yearStart year * dayLength := by
      by_contra hge
      exact hyear (by rw [yearOfTime_eq (Int.not_lt.1 hge) (by omega)])
    -- offsets are less than a day, so the new year is at this midnight
    have hday : day = yearStart year := by
      have hmost := z.second_dvd_most
      unfold WithinDay dayLength second at *
      omega
    rw [hday] at hw hw'
    rcases Int.lt_or_le t (yearStart year * dayLength) with ht | ht
    · exact h.lead_eq_least_before_new_year hlt hsince hnear hw hw' hx hy hxt ht hafter
    · exact h.lead_eq_least_after_new_year hlt hsince hnear hw hw' hx hy hbefore ht hty

end Alternates

/-- The same for a zone by its rules; a zone without daylight time has one lead only. -/
theorem lead_eq_least_of_spaced (hz : z.WithinDay) (hspaced : ∀ d ∈ z.daylight, d.Spaced z.standard)
    (hnear : z.most - z.least < dayLength) (hw : day * dayLength - 1000 ≤ w)
    (hw' : w ≤ day * dayLength) (hx : z.lead (w - z.most) = z.least)
    (hy : z.lead (w - z.least) = z.least) (hxt : w - z.most ≤ t) (hty : t ≤ w - z.least) :
    z.lead t = z.least := by
  rcases Int.lt_or_eq_of_le z.least_le_most with hlt | heq
  · cases hd : z.daylight with
    | none =>
        unfold least most at hlt
        rw [hd] at hlt
        exact absurd hlt (Int.lt_irrefl _)
    | some d =>
        obtain h | h := alternates_of_spaced hd (hspaced d hd) hlt
        · exact h.lead_eq_least hz hlt hnear hw hw' hx hy hxt hty
        · exact h.lead_eq_least hz hlt hnear hw hw' hx hy hxt hty
  · have hor := z.lead_eq t
    omega

end Zone

end LogSearch
