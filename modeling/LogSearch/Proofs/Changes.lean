import LogSearch.Proofs.Clock
import Mathlib.Tactic.ByContra
import Mathlib.Tactic.Lemma

/-!
# Clocks that are changed by day

Most zones change their clock in the small hours, between two midnights, and in other months than
January and December.  Such a change never touches a midnight, in whatever year.

* `ChangeDay.weekday_bounds` — a weekday of a month lies in it.
* `Change.IsPlain`, `Daylight.IsPlain` — changes far from the new year, and daylight time that
  starts and ends by such changes; `Change.isPlain_of_weekday` finds them by their months.
* `Daylight.IsPlain.change` — plain daylight time begins and ceases to be in force at no other
  instants than its yearly start and end.
* `Zone.jumps_within_day` — so the clock jumps from one reading of a day to another, and keeps every
  midnight (`Zone.keeps_midnight`).
-/

namespace LogSearch

-- Sums start from the literal zero, as those of `Date.toDay` do.
attribute [local instance (high)] Zero.ofOfNat0

variable {z : Zone} {d : Daylight} {c : Change} {standard year day t a b : Int}
  {month month' week week' n n' : Nat}

/-! ## Years and months -/

lemma yearStart_mono {y y' : Int} (h : y ≤ y') : yearStart y ≤ yearStart y' := by
  unfold yearStart
  dsimp only
  omega

/-- A day lies in no other year than its own. -/
lemma yearOf_eq (h₁ : yearStart year ≤ day) (h₂ : day < yearStart (year + 1)) :
    yearOf day = year := by
  obtain ⟨h₃, h₄⟩ := yearStart_yearOf day
  rcases Int.lt_trichotomy (yearOf day) year with hlt | heq | hgt
  · have := yearStart_mono (show yearOf day + 1 ≤ year by omega)
    omega
  · exact heq
  · have := yearStart_mono (show year + 1 ≤ yearOf day by omega)
    omega

/-- The day of the year that a month starts with, the first being day 0. -/
def monthOffset (leap : Bool) (month : Nat) : Nat :=
  ((monthLengths leap).take (month - 1)).sum

lemma monthOffset_add_le : ∀ leap, ∀ m < 13, ∀ m' < 13, 1 ≤ m → m < m' →
    monthOffset leap m + (monthLengths leap).getD (m - 1) 0 ≤ monthOffset leap m' := by
  decide

lemma monthLength_bounds : ∀ leap, ∀ m < 13, 1 ≤ m →
    28 ≤ (monthLengths leap).getD (m - 1) 0 ∧ (monthLengths leap).getD (m - 1) 0 ≤ 31 := by
  decide

/-- A month ends within its year. -/
lemma monthEnd_le (h₁ : 1 ≤ month) (h₂ : month ≤ 12) (year : Int) :
    yearStart year + monthOffset (isLeap year) month + monthLength year month
      ≤ yearStart (year + 1) := by
  have hmonths : ∀ leap, ∀ m < 13, 1 ≤ m → monthOffset leap m + (monthLengths leap).getD (m - 1) 0
      ≤ if leap then 366 else 365 := by
    decide
  have hmonth := hmonths (isLeap year) month (by omega) h₁
  rw [yearStart_succ, monthLength]
  generalize isLeap year = leap at hmonth ⊢
  cases leap <;> simp only [Bool.false_eq_true, ↓reduceIte] at hmonth ⊢ <;> omega

/-- **A weekday of a month lies in it.** -/
theorem ChangeDay.weekday_bounds (h₁ : 1 ≤ month) (h₂ : month ≤ 12) (hw : 1 ≤ week) (n : Nat)
    (year : Int) :
    yearStart year + monthOffset (isLeap year) month ≤ (weekday month week n).day year ∧
      (weekday month week n).day year < yearStart year + monthOffset (isLeap year) month
        + (monthLengths (isLeap year)).getD (month - 1) 0 := by
  have hlen := monthLength_bounds (isLeap year) month (by omega) h₁
  unfold day monthLength Date.toDay monthOffset
  dsimp only
  omega

/-- **A change that a description can name happens in its year**; only the 366th day may be the
first one of the next. -/
theorem ChangeDay.day_bounds {rule : ChangeDay} (h : rule.isPosix) (year : Int) :
    yearStart year ≤ rule.day year ∧
      (rule ≠ .yearDay 365 → rule.day year < yearStart (year + 1)) := by
  have hleap := yearStart_succ year
  cases rule with
  | weekday month week n =>
      simp only [isPosix, Bool.and_eq_true, decide_eq_true_eq] at h
      obtain ⟨⟨⟨⟨h₁, h₂⟩, hw⟩, -⟩, -⟩ := h
      have hend := monthEnd_le h₁ h₂ year
      have hday := weekday_bounds h₁ h₂ hw n year
      rw [monthLength] at hend
      omega
  | commonDay n =>
      simp only [isPosix, Bool.and_eq_true, decide_eq_true_eq] at h
      unfold day
      dsimp only
      generalize isLeap year = leap at hleap ⊢
      -- only a year with a leap day has room for one day more
      cases leap <;> simp only [Bool.false_eq_true, Bool.false_and, ↓reduceIte] at hleap ⊢
      · omega
      · split <;> omega
  | yearDay n =>
      simp only [isPosix, decide_eq_true_eq] at h
      unfold day
      dsimp only
      refine ⟨by omega, fun hlast => ?_⟩
      have hne : n ≠ 365 := fun hn => hlast (hn ▸ rfl)
      split at hleap <;> omega

/-! ## Plain changes -/

/-- A change that always happens after January and before December. -/
structure Change.IsPlain (c : Change) : Prop where
  afterJanuary : ∀ year, yearStart year + 31 ≤ c.day year
  beforeDecember : ∀ year, c.day year + 30 < yearStart (year + 1)

/-- Daylight time is ahead of the standard one, and starts and ends by plain changes that lie four
weeks apart.  The readings that the clock skips or shows twice lie between two
midnights, of which the first may be shown twice and the second may follow a skipped hour. -/
structure Daylight.IsPlain (d : Daylight) (standard : Int) : Prop where
  starts : d.starts.IsPlain
  ends : d.ends.IsPlain
  apart : (∀ year, d.starts.day year + 28 ≤ d.ends.day year) ∨
    ∀ year, d.ends.day year + 28 ≤ d.starts.day year
  ahead : standard < d.offset
  skips : 0 < d.starts.time ∧ d.starts.time + (d.offset - standard) ≤ 86400
  repeats : d.offset - standard ≤ d.ends.time ∧ d.ends.time < 86400

/-- A change by weekday in a month from February to November is plain. -/
lemma Change.isPlain_of_weekday (h₁ : 2 ≤ month) (h₂ : month ≤ 11) (hw : 1 ≤ week) (time : Int) :
    (⟨.weekday month week n, time⟩ : Change).IsPlain := by
  suffices h : ∀ year, yearStart year + 31 ≤ (ChangeDay.weekday month week n).day year ∧
      (ChangeDay.weekday month week n).day year + 30 < yearStart (year + 1) from
    ⟨fun year => (h year).1, fun year => (h year).2⟩
  intro year
  have hday := ChangeDay.weekday_bounds (Nat.le_of_succ_le h₁) (by omega) hw n year
  have hlow := monthOffset_add_le (isLeap year) 1 (by omega) month (by omega) (by omega) h₁
  have hhigh := monthOffset_add_le (isLeap year) month (by omega) 12 (by omega) (by omega)
    (by omega)
  have hfirst : monthOffset (isLeap year) 1 = 0 ∧
      (monthLengths (isLeap year)).getD (1 - 1) 0 = 31 := ⟨rfl, rfl⟩
  have hlast : monthOffset (isLeap year) 12 = if isLeap year then 335 else 334 := by
    cases isLeap year <;> rfl
  rw [yearStart_succ]
  split at hlast <;> simp only [*] <;> omega

/-- Weekdays in months that are not next to each other lie four weeks apart. -/
lemma ChangeDay.weekday_add_le (h₁ : 1 ≤ month) (h₂ : month' ≤ 12) (hw : 1 ≤ week)
    (hw' : 1 ≤ week') (hlt : month + 1 < month') (year : Int) :
    (ChangeDay.weekday month week n).day year + 28
      ≤ (ChangeDay.weekday month' week' n').day year := by
  have hday := weekday_bounds h₁ (by omega) hw n year
  have hday' := weekday_bounds (by omega) h₂ hw' n' year
  have hnext := monthOffset_add_le (isLeap year) month (by omega) (month + 1) (by omega)
    (by omega) (by omega)
  have hbetween := monthOffset_add_le (isLeap year) (month + 1) (by omega) month' (by omega)
    (by omega) hlt
  have hlen := monthLength_bounds (isLeap year) (month + 1) (by omega) (by omega)
  omega

/-! ## When daylight time is in force -/

namespace Daylight

lemma inForce_iff_of_le (h : d.startInstant standard (d.ruleYear t) ≤ d.endInstant (d.ruleYear t)) :
    d.inForce standard t = true ↔ d.startInstant standard (d.ruleYear t) ≤ t ∧
      t < d.endInstant (d.ruleYear t) := by
  unfold inForce
  dsimp only
  rw [if_pos h, Bool.and_eq_true, decide_eq_true_eq, decide_eq_true_eq]

lemma inForce_iff_of_lt (h : d.endInstant (d.ruleYear t) < d.startInstant standard (d.ruleYear t)) :
    d.inForce standard t = true ↔ t < d.endInstant (d.ruleYear t) ∨
      d.startInstant standard (d.ruleYear t) ≤ t := by
  unfold inForce
  dsimp only
  rw [if_neg (Int.not_le.mpr h), Bool.or_eq_true, decide_eq_true_eq, decide_eq_true_eq]

/-- Where the changes of another year begin to count, it is the new year of UTC. -/
lemma newYear_of_ruleYear_ne (h : d.ruleYear (t - 1) ≠ d.ruleYear t) :
    d.ruleYear (t - 1) < d.ruleYear t ∧ t = yearStart (d.ruleYear t) * dayLength := by
  obtain ⟨h₁, h₂⟩ := yearStart_yearOf (t / dayLength)
  obtain ⟨h₃, h₄⟩ := yearStart_yearOf ((t - 1) / dayLength)
  have hlt : yearOf ((t - 1) / dayLength) < yearOf (t / dayLength) := by
    by_contra hge
    have hmono := yearStart_mono (Int.not_lt.mp hge)
    have hsame : yearOf ((t - 1) / dayLength) = yearOf (t / dayLength) :=
      yearOf_eq (by omega) (by unfold dayLength at *; omega)
    exact h (by rw [ruleYear, ruleYear, hsame])
  have hrule : d.ruleYear t = yearOf (t / dayLength) := by
    unfold ruleYear at *
    omega
  have hmono := yearStart_mono (Int.add_one_le_of_lt hlt)
  refine ⟨by unfold ruleYear at *; omega, ?_⟩
  rw [hrule]
  unfold dayLength at *
  omega

/-- A year holds both of its changes. -/
lemma IsPlain.inside (h : d.IsPlain standard) (hstd : -86400 < standard ∧ standard < 86400)
    (hoff : -86400 < d.offset ∧ d.offset < 86400) (year : Int) :
    yearStart year * dayLength < d.startInstant standard year ∧
      d.startInstant standard year < yearStart (year + 1) * dayLength ∧
      yearStart year * dayLength < d.endInstant year ∧
      d.endInstant year < yearStart (year + 1) * dayLength := by
  have hs := h.starts.afterJanuary year
  have hs' := h.starts.beforeDecember year
  have he := h.ends.afterJanuary year
  have he' := h.ends.beforeDecember year
  obtain ⟨-, -, -, hahead, hskips, hrepeats⟩ := h
  unfold startInstant endInstant Change.seconds dayLength second
  omega

lemma IsPlain.order (h : d.IsPlain standard) :
    (∀ year, d.startInstant standard year < d.endInstant year) ∨
      ∀ year, d.endInstant year < d.startInstant standard year := by
  obtain ⟨-, -, hapart, hahead, hskips, hrepeats⟩ := h
  refine hapart.imp (fun hlt year => ?_) (fun hlt year => ?_)
  · have := hlt year
    unfold startInstant endInstant Change.seconds second
    omega
  · have := hlt year
    unfold startInstant endInstant Change.seconds second
    omega

/-- **Daylight time starts and ends by its changes alone.**  At the new year in UTC, where the
changes of another year begin to count, it stays in force or out of force. -/
theorem IsPlain.change (h : d.IsPlain standard) (hstd : -86400 < standard ∧ standard < 86400)
    (hoff : -86400 < d.offset ∧ d.offset < 86400)
    (hne : d.inForce standard (t - 1) ≠ d.inForce standard t) :
    ∃ year, (d.inForce standard t = true ∧ t = d.startInstant standard year) ∨
      (d.inForce standard t = false ∧ t = d.endInstant year) := by
  have hinside := h.inside hstd hoff
  refine ⟨d.ruleYear t, ?_⟩
  rw [← Bool.not_eq_true]
  rw [Ne, Bool.eq_iff_iff] at hne
  by_cases hyear : d.ruleYear (t - 1) = d.ruleYear t
  · rcases h.order with horder | horder
    · rw [inForce_iff_of_le (Int.le_of_lt (horder _)),
        inForce_iff_of_le (Int.le_of_lt (horder _)), hyear] at hne
      rw [inForce_iff_of_le (Int.le_of_lt (horder _))]
      omega
    · rw [inForce_iff_of_lt (horder _), inForce_iff_of_lt (horder _), hyear] at hne
      rw [inForce_iff_of_lt (horder _)]
      omega
  · -- the changes of the old year are over, those of the new one are still to come
    obtain ⟨hold, hturn⟩ := newYear_of_ruleYear_ne hyear
    have hnow := hinside (d.ruleYear t)
    have hbefore := hinside (d.ruleYear (t - 1))
    have hmono : yearStart (d.ruleYear (t - 1) + 1) * dayLength ≤ t := by
      have := yearStart_mono (Int.add_one_le_of_lt hold)
      unfold dayLength at *
      omega
    rcases h.order with horder | horder
    · rw [inForce_iff_of_le (Int.le_of_lt (horder _)),
        inForce_iff_of_le (Int.le_of_lt (horder _))] at hne
      omega
    · rw [inForce_iff_of_lt (horder _), inForce_iff_of_lt (horder _)] at hne
      omega

end Daylight

/-! ## Jumps within a day -/

namespace Zone

lemma lead_of_inForce (hd : z.daylight = some d) (t : Int) :
    z.lead t = (if d.inForce z.standard t then d.offset else z.standard) * second := by
  unfold lead offsetAt
  rw [hd]

lemma offsets_of_withinDay (hz : z.WithinDay) (hd : z.daylight = some d) :
    (-86400 < z.standard ∧ z.standard < 86400) ∧ -86400 < d.offset ∧ d.offset < 86400 := by
  unfold WithinDay least most dayLength second at hz
  rw [hd] at hz
  dsimp only at hz
  omega

/-- **The clock of a plain zone jumps within a day.**  A jump forward may lead to the midnight that
the day ends with, and a jump back to the one that it starts with. -/
theorem jumps_within_day (hz : z.WithinDay) (hp : ∀ d ∈ z.daylight, d.IsPlain z.standard)
    (hj : z.Jumps a b) : ∃ day, (a < b ∧ day * dayLength < a ∧ b ≤ (day + 1) * dayLength) ∨
      (b < a ∧ day * dayLength ≤ b ∧ a < (day + 1) * dayLength) := by
  obtain ⟨t, ha, hb, hne⟩ := hj
  rw [wallAt_eq] at ha hb
  cases hd : z.daylight with
  | none =>
      have hlead : z.lead (t - 1) = z.lead t := by
        unfold lead offsetAt
        rw [hd]
      omega
  | some d =>
      have hplain := hp d hd
      obtain ⟨hstd, hoff⟩ := offsets_of_withinDay hz hd
      rw [lead_of_inForce hd] at ha hb
      have hforce : d.inForce z.standard (t - 1) ≠ d.inForce z.standard t := by
        intro heq
        rw [heq] at ha
        omega
      obtain ⟨year, ⟨hnow, ht⟩ | ⟨hnow, ht⟩⟩ := hplain.change hstd hoff hforce
      · rw [hnow, Ne, Bool.not_eq_true] at hforce
        refine ⟨d.starts.day year, Or.inl ?_⟩
        have hskips := hplain.skips
        have hahead := hplain.ahead
        rw [hforce] at ha
        rw [hnow] at hb
        simp only [Bool.false_eq_true, ↓reduceIte] at ha hb
        unfold Daylight.startInstant Change.seconds second at *
        unfold dayLength
        omega
      · rw [hnow, Ne, Bool.not_eq_false] at hforce
        refine ⟨d.ends.day year, Or.inr ?_⟩
        have hrepeats := hplain.repeats
        have hahead := hplain.ahead
        rw [hforce] at ha
        rw [hnow] at hb
        simp only [Bool.false_eq_true, ↓reduceIte] at ha hb
        unfold Daylight.endInstant Change.seconds second at *
        unfold dayLength
        omega

/-- A plain zone keeps every midnight, as a start and as an end. -/
theorem keeps_midnight (hz : z.WithinDay) (hp : ∀ d ∈ z.daylight, d.IsPlain z.standard)
    (day : Int) : z.KeepsStart (day * dayLength) ∧ z.KeepsEnd (day * dayLength) := by
  constructor <;>
  · intro a b hj
    obtain ⟨other, hday⟩ := jumps_within_day hz hp hj
    unfold dayLength at *
    omega

end Zone

end LogSearch
