import LogSearch.Calendar.Read
import LogSearch.Calendar.Window
import LogSearch.Proofs.Changes
import LogSearch.Proofs.Readings
import Mathlib.Control.Monad.Basic
import Mathlib.Tactic.Lemma

/-!
# The days that a range names

A named range is meant to hold the instants at which the clock shows one of the days that it names.
Both ends are found by converting a reading of the clock, the first one of the first day and the
last one of the last day, and where the clock jumps near midnight a conversion may find another
instant.

* `RangeName.Covers` — the days of a range in terms of the calendar; `RangeName.covers_iff`: they
  are those from the first to the last day that `RangeName.days` computes.
* `Zone.dayStart`, `Zone.dayEnd` — the instants taken for the two ends of a day.
* `RangeName.window_eq` — the window of a range, which exists away from the ends of the calendar.
* `Zone.KeepsBounds` — no jump of the clock leads over an end of a range.  `namedWindow_covers`:
  these are the cases in which the window holds the days of the range and no others.
* `namedWindow_covers_of_isPlain` — zones that change their clock by day are always such cases, but
  a zone that changes it at midnight is not (`namedWindow_skipped_midnight`).
-/

namespace LogSearch

variable {z : Zone} {now : Moment} {today day t w : Int} {name : RangeName}

/-! ## Days in a range -/

namespace RangeName

/-- The days that a range names, as seen from a day: from that day on, the day before it, from the
Monday of its week on, the week before that Monday, and from the first of its month on. -/
def Covers (today day : Int) : RangeName → Prop
  | .today => today ≤ day
  | .yesterday => day = today - 1
  | .thisWeek => ∃ monday, dayOfWeek monday = 0 ∧ monday ≤ today ∧ today < monday + 7 ∧
      monday ≤ day
  | .lastWeek => ∃ monday, dayOfWeek monday = 0 ∧ monday ≤ today ∧ today < monday + 7 ∧
      monday - 7 ≤ day ∧ day < monday
  | .thisMonth => Date.toDay ⟨(Date.ofDay today).year, (Date.ofDay today).month, 1⟩ ≤ day

lemma eq_mondayOf {monday : Int} (h : dayOfWeek monday = 0) (h₁ : monday ≤ today)
    (h₂ : today < monday + 7) : monday = mondayOf today := by
  unfold mondayOf dayOfWeek at *
  omega

lemma mondayOf_spec (today : Int) : dayOfWeek (mondayOf today) = 0 ∧ mondayOf today ≤ today ∧
    today < mondayOf today + 7 := by
  unfold mondayOf dayOfWeek
  omega

lemma toDay_first (today : Int) :
    Date.toDay ⟨(Date.ofDay today).year, (Date.ofDay today).month, 1⟩ = monthStartOf today := by
  have h := Date.toDay_ofDay today
  unfold monthStartOf Date.toDay at *
  dsimp only
  omega

/-- The days that a range names are those from its first to its last. -/
theorem covers_iff : name.Covers today day ↔
    (name.days today).1 ≤ day ∧ ∀ last ∈ (name.days today).2, day ≤ last := by
  have hmon := mondayOf_spec today
  cases name with
  | today => simp [Covers, days]
  | yesterday =>
      simp only [Covers, days, Option.mem_some_iff, forall_eq']
      omega
  | thisWeek =>
      simp only [Covers, days, Option.not_mem_none, false_imp_iff, implies_true, and_true]
      constructor
      · rintro ⟨monday, h, h₁, h₂, hday⟩
        rwa [← eq_mondayOf h h₁ h₂]
      · intro hday
        exact ⟨mondayOf today, hmon.1, hmon.2.1, hmon.2.2, hday⟩
  | lastWeek =>
      simp only [Covers, days, Option.mem_some_iff, forall_eq']
      constructor
      · rintro ⟨monday, h, h₁, h₂, hday⟩
        rw [← eq_mondayOf h h₁ h₂]
        omega
      · intro hday
        exact ⟨mondayOf today, hmon.1, hmon.2.1, hmon.2.2, by omega⟩
  | thisMonth => simp [Covers, days, toDay_first]

lemma monthStartOf_bounds (today : Int) :
    yearStart (yearOf today) ≤ monthStartOf today ∧ monthStartOf today ≤ today := by
  have h := Date.toDay_ofDay today
  unfold monthStartOf Date.toDay at *
  simp only [Date.ofDay] at *
  omega

/-- The days of a range have begun, and those of a range with a last day are over. -/
lemma days_le (today : Int) (name : RangeName) : (name.days today).1 ≤ today ∧
    ∀ last ∈ (name.days today).2, (name.days today).1 ≤ last ∧ last < today := by
  have hmon := mondayOf_spec today
  have hmonth := monthStartOf_bounds today
  cases name <;>
    simp only [days, Option.mem_some_iff, forall_eq', Option.not_mem_none, false_imp_iff,
      implies_true, and_true] <;> omega

/-- Seen from a day of the years 2 to 9998, a range lies in the calendar, with days to spare on both
sides. -/
lemma days_bounds (h₁ : 2 ≤ yearOf today) (h₂ : yearOf today ≤ 9998) (name : RangeName) :
    3 ≤ (name.days today).1 ∧ today < calendarDays - 4 := by
  have hyear := yearStart_yearOf today
  have hfirst : 365 ≤ yearStart (yearOf today) := by
    unfold yearStart
    dsimp only
    omega
  have hnext : yearStart (yearOf today + 1) ≤ calendarDays - 365 := by
    unfold yearStart calendarDays
    dsimp only
    omega
  have hmon := mondayOf_spec today
  have hmonth := monthStartOf_bounds today
  cases name <;> simp only [days] <;> omega

lemma ofText?_text (name : RangeName) : ofText? name.text = some name := by
  cases name <;> decide

end RangeName

/-! ## From days to instants -/

namespace Zone

/-- The instant taken for the first midnight of a day. -/
def dayStart (z : Zone) (day : Int) : Int :=
  day * dayLength - z.leadOf (day * dayLength)

/-- The instant taken for the midnight that a day ends with: it has the lead of the last
millisecond of the day. -/
def dayEnd (z : Zone) (day : Int) : Int :=
  (day + 1) * dayLength - z.leadOf ((day + 1) * dayLength - 1000)

/-- The start of a day is where the clock passes its midnight, if no jump leads over that. -/
lemma dayStart_le_iff (z : Zone) (day : Int) :
    (∀ t, z.dayStart day ≤ t ↔ day ≤ z.wallAt t / dayLength) ↔ z.KeepsStart (day * dayLength) := by
  rw [← keepsStart_iff]
  simp only [dayStart, Int.le_ediv_iff_mul_le (show (0 : Int) < dayLength by decide)]

/-- The end of a day is where the clock passes the next midnight, if no jump leads over that. -/
lemma lt_dayEnd_iff (z : Zone) (day : Int) :
    (∀ t, t < z.dayEnd day ↔ z.wallAt t / dayLength ≤ day)
      ↔ z.KeepsEnd ((day + 1) * dayLength) := by
  rw [← keepsEnd_iff (n := 1000) z (by unfold second dayLength; omega) (by decide) (by decide)]
  simp only [dayEnd, ← Int.lt_add_one_iff,
    Int.ediv_lt_iff_lt_mul (show (0 : Int) < dayLength by decide)]

end Zone

lemma instantInDay_start (hz : z.WithinDay)
    (h₁ : dayLength + (z.most - z.least) ≤ day * dayLength)
    (h₂ : day * dayLength + (z.most - z.least) < calendarDays * dayLength)
    (h₃ : day < calendarDays) : instantInDay z day 0 = .ok (z.dayStart day) := by
  have hle := z.least_le_most
  unfold instantInDay
  rw [if_pos (by unfold dayLength at *; omega), Int.add_zero,
    Zone.instantOf_eq hz h₁ h₂ (by unfold dayLength; omega)]
  rfl

lemma instantInDay_end (hz : z.WithinDay)
    (h₁ : dayLength + (z.most - z.least) ≤ (day + 1) * dayLength - 1000)
    (h₂ : (day + 1) * dayLength - 1000 + (z.most - z.least) < calendarDays * dayLength)
    (h₃ : day + 1 < calendarDays) : instantInDay z day endOfDay = .ok (z.dayEnd day - 1000) := by
  have hle := z.least_le_most
  have hread : day * dayLength + endOfDay = (day + 1) * dayLength - 1000 := by
    unfold endOfDay dayLength
    omega
  unfold instantInDay
  rw [if_pos (by unfold dayLength at *; omega), hread,
    Zone.instantOf_eq hz h₁ h₂ (by unfold dayLength; omega)]
  congr 1
  unfold Zone.dayEnd
  omega

/-! ## The window of a range -/

namespace RangeName

/-- The window of a range, from the start of its first day to the last millisecond of its last. -/
def span (z : Zone) (today : Int) (name : RangeName) : Window :=
  ⟨z.dayStart (name.days today).1, (name.days today).2.map (z.dayEnd · - 1000)⟩

/-- A range has its window, if the readings at its two ends have instants. -/
lemma window_eq_of_ends (hstart : instantInDay z (name.days today).1 0
      = .ok (z.dayStart (name.days today).1))
    (hend : ∀ last ∈ (name.days today).2,
      instantInDay z last endOfDay = .ok (z.dayEnd last - 1000)) :
    name.window z today = .ok (name.span z today) := by
  unfold window span
  generalize name.days today = range at *
  obtain ⟨first, last⟩ := range
  simp only [hstart, bind, Except.bind]
  cases last with
  | none => rfl
  | some day =>
      simp only [hend day rfl]
      rfl

/-- The last day of a range has an end where it is clear of the end of the calendar, and the first
day of its start. -/
lemma instantInDay_last (hz : z.WithinDay)
    (h₁ : dayLength + (z.most - z.least) ≤ ((name.days today).1 + 1) * dayLength - 1000)
    (h₂ : ∀ last ∈ (name.days today).2,
      (last + 1) * dayLength - 1000 + (z.most - z.least) < calendarDays * dayLength)
    (h₃ : today < calendarDays) : ∀ last ∈ (name.days today).2,
      instantInDay z last endOfDay = .ok (z.dayEnd last - 1000) := by
  intro last hlast
  have hle := (name.days_le today).2 last hlast
  refine instantInDay_end hz ?_ (h₂ last hlast) ?_ <;> unfold dayLength at * <;> omega

/-- **The window of a range exists** where both its days are clear of the ends of the calendar. -/
theorem window_eq (hz : z.WithinDay)
    (h₁ : dayLength + (z.most - z.least) ≤ (name.days today).1 * dayLength)
    (h₂ : (name.days today).1 * dayLength + (z.most - z.least) < calendarDays * dayLength)
    (h₂' : ∀ last ∈ (name.days today).2,
      (last + 1) * dayLength - 1000 + (z.most - z.least) < calendarDays * dayLength)
    (h₃ : today < calendarDays) : name.window z today = .ok (name.span z today) := by
  have hle := (name.days_le today).1
  refine window_eq_of_ends (instantInDay_start hz h₁ h₂ ?_) (instantInDay_last hz ?_ h₂' h₃) <;>
    unfold dayLength at * <;> omega

/-- The days of a range are clear of the end of the calendar if the one that it is seen from is. -/
lemma window_eq_of_today (hz : z.WithinDay)
    (h₁ : dayLength + (z.most - z.least) ≤ (name.days today).1 * dayLength)
    (h₂ : today * dayLength + (z.most - z.least) < calendarDays * dayLength)
    (h₃ : today < calendarDays) : name.window z today = .ok (name.span z today) := by
  obtain ⟨hfirst, hlast⟩ := name.days_le today
  refine window_eq hz h₁ ?_ (fun last hmem => ?_) h₃
  · unfold dayLength at *
    omega
  · have := hlast last hmem
    unfold dayLength at *
    omega

end RangeName

/-- The window of a name is that of its range, as seen from the local day. -/
lemma namedWindow_text (hday : now.localDay z = .ok today) (name : RangeName) :
    namedWindow z name.text now = some <$> name.window z today := by
  rw [namedWindow, hday, RangeName.ofText?_text]
  rfl

lemma namedWindow_eq (hz : z.WithinDay) (hday : now.localDay z = .ok today)
    (h₁ : 2 ≤ yearOf today) (h₂ : yearOf today ≤ 9998) (name : RangeName) :
    namedWindow z name.text now = .ok (some (name.span z today)) := by
  obtain ⟨hfirst, htoday⟩ := name.days_bounds h₁ h₂
  obtain ⟨hlow, hhigh⟩ := hz
  rw [namedWindow_text hday, RangeName.window_eq_of_today ⟨hlow, hhigh⟩]
  · rfl
  all_goals
    unfold dayLength at *
    omega

/-- A window holds an instant if the instant, cut to milliseconds, lies between its ends. -/
def Window.Contains (w : Window) (t : Int) : Prop :=
  w.start ≤ t / 1000 * 1000 ∧ ∀ stop ∈ w.stop, t / 1000 * 1000 ≤ stop

/-- Days start and end at whole seconds, so what is finer than a millisecond does not matter. -/
lemma contains_span_iff : (name.span z today).Contains t ↔
    z.dayStart (name.days today).1 ≤ t ∧ ∀ last ∈ (name.days today).2, t < z.dayEnd last := by
  have hstart : ∀ day, second ∣ z.dayStart day := fun day =>
    Int.dvd_sub (by unfold second dayLength; omega) (z.second_dvd_leadOf _)
  have hend : ∀ day, second ∣ z.dayEnd day := fun day =>
    Int.dvd_sub (by unfold second dayLength; omega) (z.second_dvd_leadOf _)
  have hfirst := hstart (name.days today).1
  unfold Window.Contains RangeName.span
  unfold second at *
  cases (name.days today).2 with
  | none =>
      simp only [Option.map_none, Option.not_mem_none, false_imp_iff, implies_true, and_true]
      omega
  | some last =>
      have := hend last
      simp only [Option.map_some, Option.mem_some_iff, forall_eq']
      omega

/-! ## The days in a window -/

/-- No jump of the clock leads over an end of a range. -/
def Zone.KeepsBounds (z : Zone) (name : RangeName) (today : Int) : Prop :=
  z.KeepsStart ((name.days today).1 * dayLength) ∧
    ∀ last ∈ (name.days today).2, z.KeepsEnd ((last + 1) * dayLength)

/-- A zone that changes its clock by day keeps all ends of ranges. -/
lemma Zone.keepsBounds_of_isPlain (hz : z.WithinDay) (hp : ∀ d ∈ z.daylight, d.IsPlain z.standard)
    (name : RangeName) (today : Int) : z.KeepsBounds name today :=
  ⟨(keeps_midnight hz hp _).1, fun last _ => (keeps_midnight hz hp (last + 1)).2⟩

lemma contains_span_iff_covers (h : z.KeepsBounds name today) (t : Int) :
    (name.span z today).Contains t ↔ name.Covers today (z.wallAt t / dayLength) := by
  obtain ⟨hstart, hend⟩ := h
  rw [contains_span_iff, RangeName.covers_iff, (z.dayStart_le_iff _).mpr hstart]
  exact and_congr_right fun _ => forall₂_congr fun last hlast =>
    (z.lt_dayEnd_iff last).mpr (hend last hlast) t

/-- The ends of a range lie so far apart that one cannot make up for the other, as long as its
offsets do not. -/
lemma keepsBounds_of_forall_contains (hgap : z.most - z.least ≤ dayLength)
    (hle : ∀ last ∈ (name.days today).2, (name.days today).1 ≤ last)
    (h : ∀ t, (name.span z today).Contains t ↔ name.Covers today (z.wallAt t / dayLength)) :
    z.KeepsBounds name today := by
  simp only [contains_span_iff, RangeName.covers_iff] at h
  unfold Zone.KeepsBounds
  simp only [← Zone.dayStart_le_iff, ← Zone.lt_dayEnd_iff]
  generalize name.days today = range at *
  obtain ⟨first, last⟩ := range
  cases last with
  | none => simpa using h
  | some day =>
      simp only [Option.mem_some_iff, forall_eq'] at *
      have hof := z.leadOf_bounds (first * dayLength)
      have hof' := z.leadOf_bounds ((day + 1) * dayLength - 1000)
      constructor <;> intro t
      all_goals
        have ht := h t
        have hlead := z.lead_bounds t
        have := z.wallAt_eq t
        unfold Zone.dayStart Zone.dayEnd dayLength at *
        omega

/-- **A named range holds the days that it names, where no jump of the clock leads over an end.**
Seen from any day of the years 2 to 9998 the range has a window.  If the zone keeps the ends of the
range, then the window holds exactly the instants at which the clock shows a day that the range
names; otherwise it does not, provided that the offsets lie at most a day apart. -/
theorem namedWindow_covers (hz : z.WithinDay) (hday : now.localDay z = .ok today)
    (h₁ : 2 ≤ yearOf today) (h₂ : yearOf today ≤ 9998) (name : RangeName) :
    ∃ w, namedWindow z name.text now = .ok (some w) ∧
      (z.KeepsBounds name today →
        ∀ t, w.Contains t ↔ name.Covers today (z.wallAt t / dayLength)) ∧
      (z.most - z.least ≤ dayLength →
        (∀ t, w.Contains t ↔ name.Covers today (z.wallAt t / dayLength)) →
          z.KeepsBounds name today) := by
  exact ⟨_, namedWindow_eq hz hday h₁ h₂ name, contains_span_iff_covers,
    fun hgap => keepsBounds_of_forall_contains hgap fun last hlast =>
      ((name.days_le today).2 last hlast).1⟩

/-- The zone of the eastern United States. -/
def easternZone : Zone :=
  ⟨-18000, some ⟨-14400, ⟨.weekday 3 2 0, 7200⟩, ⟨.weekday 11 1 0, 7200⟩, firstRuleYear⟩⟩

lemma easternZone_isPlain : ∀ d ∈ easternZone.daylight, d.IsPlain easternZone.standard := by
  rintro d ⟨⟩
  constructor
  case starts => exact Change.isPlain_of_weekday (by decide) (by decide) (by decide) _
  case ends => exact Change.isPlain_of_weekday (by decide) (by decide) (by decide) _
  case apart =>
    exact Or.inl (ChangeDay.weekday_add_le (by decide) (by decide) (by decide) (by decide)
      (by decide))
  all_goals decide

/-- Last week, seen from 4 November 2026, starts in daylight time and ends in standard time. -/
theorem namedWindow_covers_last_week :
    let today := Date.toDay ⟨2026, 11, 4⟩
    ∃ w, namedWindow easternZone RangeName.lastWeek.text (.wall (today * dayLength))
        = .ok (some w) ∧
      isoText w.start = "2026-10-26T04:00:00.000Z".text ∧
      w.stop.map isoText = some "2026-11-02T04:59:59.999Z".text ∧
      ∀ t, w.Contains t ↔ RangeName.lastWeek.Covers today (easternZone.wallAt t / dayLength) := by
  intro today
  have hz : easternZone.WithinDay := by decide
  have hday : (Moment.wall (today * dayLength)).localDay easternZone = .ok today := by
    decide +kernel
  obtain ⟨w, hw, hcovers, -⟩ := namedWindow_covers hz hday (by decide +kernel) (by decide +kernel)
    .lastWeek
  have hvalue : namedWindow easternZone RangeName.lastWeek.text (.wall (today * dayLength))
      = .ok (some ⟨(today - 9) * dayLength + 4 * 3600 * second,
          some ((today - 2) * dayLength + 5 * 3600 * second - 1000)⟩) := by
    decide +kernel
  obtain rfl := Option.some.inj (Except.ok.inj (hw.symm.trans hvalue))
  exact ⟨_, hw, by decide +kernel, by decide +kernel,
    hcovers (Zone.keepsBounds_of_isPlain hz easternZone_isPlain _ _)⟩

/-- **Where the clock is changed by day, a named range holds exactly the days that it names**, in
every year and also if a change lies at one of its ends. -/
theorem namedWindow_covers_of_isPlain (hz : z.WithinDay)
    (hp : ∀ d ∈ z.daylight, d.IsPlain z.standard) (hday : now.localDay z = .ok today)
    (h₁ : 2 ≤ yearOf today) (h₂ : yearOf today ≤ 9998) (name : RangeName) :
    ∃ w, namedWindow z name.text now = .ok (some w) ∧
      ∀ t, w.Contains t ↔ name.Covers today (z.wallAt t / dayLength) :=
  ⟨_, namedWindow_eq hz hday h₁ h₂ name,
    contains_span_iff_covers (Zone.keepsBounds_of_isPlain hz hp name today)⟩

/-- A southern zone whose daylight time starts and ends at midnight: on the third Sunday of October
the clock skips the hour after midnight. -/
def southernZone : Zone :=
  ⟨-10800, some ⟨-7200, ⟨.weekday 10 3 0, 0⟩, ⟨.weekday 2 3 0, 0⟩, firstRuleYear⟩⟩

/-- **The window of a day without a midnight starts on the day before.**  At noon on
18 October 2026 the range `today` holds an instant at which the clock shows 23:00 on the 17th. -/
theorem namedWindow_skipped_midnight :
    ∃ now today w t, Zone.read? "BRT3BRST,M10.3.0/0,M2.3.0/0".text = some southernZone ∧
      Moment.read? "2026-10-18T12:00:00".text = some now ∧
      now.localDay southernZone = .ok today ∧ 2 ≤ yearOf today ∧ yearOf today ≤ 9998 ∧
      namedWindow southernZone RangeName.today.text now = .ok (some w) ∧
      w.Contains t ∧ ¬ RangeName.today.Covers today (southernZone.wallAt t / dayLength) := by
  let day : Int := Date.toDay ⟨2026, 10, 18⟩
  let start : Int := day * dayLength + 2 * 3600 * second
  have hwindow : Window.Contains ⟨start, none⟩ start := by
    simp only [Window.Contains, Option.not_mem_none, false_imp_iff, implies_true, and_true]
    decide +kernel
  let noon : Moment := .wall (day * dayLength + 12 * 3600 * second)
  refine ⟨noon, day, ⟨start, none⟩, start, by decide +kernel, by decide +kernel, rfl,
    by decide +kernel, by decide +kernel, by decide +kernel, hwindow, ?_⟩
  change ¬ day ≤ southernZone.wallAt start / dayLength
  decide +kernel

end LogSearch
