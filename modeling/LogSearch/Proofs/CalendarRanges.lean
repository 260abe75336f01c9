import LogSearch.Proofs.CivilDates
import LogSearch.Proofs.NamedDays

/-!
# Named ranges on the calendar

The ends of a named range are found by arithmetic on day numbers, from a moment that may be given in
several ways.  Read on the calendar, they are a matter of dates alone, of which one follows another.

* `Date.IsMonday` — every seventh date from the first one on.
* `RangeName.Spans` — the first and the last date of a range, seen from a date;
  `RangeName.spans_days`: they are those of the day numbers that `RangeName.days` computes.
* `Date.reading` — a date and a time as a reading of the clock, and `Window.ofDates`, the window
  from the first reading of a date to the last of another.
* `namedWindow_calendar` — the window of a named range is that of its dates, and of the moment it is
  seen from only the local date counts.
-/

namespace LogSearch

variable {z : Zone} {now : Moment} {d first : Date} {last : Option Date} {w : Window}
  {name : RangeName} {today day : Int}

/-! ## Weeks -/

namespace Date

lemma ofDay_zero : ofDay 0 = ⟨1, 1, 1⟩ := by
  decide +kernel

/-- A Monday is whole weeks after 1 January of year 1, which is one. -/
def IsMonday (d : Date) : Prop :=
  ∃ weeks, next^[7 * weeks] ⟨1, 1, 1⟩ = d

lemma isMonday_ofDay_iff (h : 0 ≤ day) : (ofDay day).IsMonday ↔ dayOfWeek day = 0 := by
  have hdays : ∀ n : Nat, next^[n] ⟨1, 1, 1⟩ = ofDay n := by
    intro n
    rw [← ofDay_zero, ← ofDay_add, Int.zero_add]
  simp only [IsMonday, hdays, dayOfWeek]
  constructor
  · rintro ⟨weeks, hweeks⟩
    have hday := congrArg toDay hweeks
    rw [toDay_ofDay, toDay_ofDay] at hday
    omega
  · intro hmod
    exact ⟨(day / 7).toNat, congrArg ofDay (by omega)⟩

/-- The dates after January of year 1. -/
lemma le_toDay_iff (hd : d.IsReal) :
    31 ≤ d.toDay ↔ 1 < d.year ∨ d.year = 1 ∧ 1 < d.month := by
  have hlast : (⟨1, 1, 31⟩ : Date).IsReal := ⟨by decide, by decide⟩
  have hday : (⟨1, 1, 31⟩ : Date).toDay = 30 := by decide
  have hend : d.day ≤ 31 := Nat.le_trans hd.day.2
    (monthLength_bounds _ _ (Nat.lt_succ_of_le hd.month.2) hd.month.1).2
  have hlt := toDay_lt_iff hlast hd
  rw [hday, Before] at hlt
  dsimp only at hlt
  omega

end Date

/-! ## The dates of a range -/

namespace RangeName

/-- The first and the last date of a range as seen from a date, by the calendar alone: the date
itself; the one before it; the Monday that it is at most six days after; the Monday a week before
that one, and the day before that one; the first day of its month. -/
def Spans (d first : Date) (last : Option Date) : RangeName → Prop
  | .today => first = d ∧ last = none
  | .yesterday => first.next = d ∧ last = some first
  | .thisWeek => first.IsMonday ∧ (∃ n ≤ 6, Date.next^[n] first = d) ∧ last = none
  | .lastWeek => first.IsMonday ∧ ∃ monday sunday : Date, monday.IsMonday ∧
      (∃ n ≤ 6, Date.next^[n] monday = d) ∧ Date.next^[7] first = monday ∧
      sunday.next = monday ∧ last = some sunday
  | .thisMonth => first = ⟨d.year, d.month, 1⟩ ∧ last = none

lemma ofDay_monthStartOf (today : Int) :
    Date.ofDay (monthStartOf today) = ⟨(Date.ofDay today).year, (Date.ofDay today).month, 1⟩ := by
  have hreal := Date.isReal_ofDay today
  have hfirst : (⟨(Date.ofDay today).year, (Date.ofDay today).month, 1⟩ : Date).IsReal :=
    ⟨hreal.month, Nat.le_refl 1, Nat.le_trans hreal.day.1 hreal.day.2⟩
  rw [← toDay_first, Date.ofDay_toDay hfirst]

/-- **The days of a range are its dates.**  Seen from 1 February of year 1 or a later day, whose
last week begins in January. -/
theorem spans_days (h : 31 ≤ today) (name : RangeName) : name.Spans (Date.ofDay today)
    (Date.ofDay (name.days today).1) ((name.days today).2.map Date.ofDay) := by
  obtain ⟨hmod, hle, hlt⟩ := mondayOf_spec today
  have hweek : ∃ n ≤ 6, Date.next^[n] (Date.ofDay (mondayOf today)) = Date.ofDay today := by
    refine ⟨(today - mondayOf today).toNat, by omega, ?_⟩
    rw [← Date.ofDay_add, show mondayOf today + (today - mondayOf today).toNat = today by omega]
  cases name with
  | today => exact ⟨rfl, rfl⟩
  | yesterday =>
      refine ⟨?_, rfl⟩
      rw [days, ← Date.ofDay_succ, Int.sub_add_cancel]
  | thisWeek =>
      have hmonday : 0 ≤ mondayOf today := by omega
      exact ⟨(Date.isMonday_ofDay_iff hmonday).2 hmod, hweek, rfl⟩
  | lastWeek =>
      have hmonday : 0 ≤ mondayOf today := by omega
      have hbefore : 0 ≤ mondayOf today - 7 := by omega
      have hmod' : dayOfWeek (mondayOf today - 7) = 0 := by
        unfold dayOfWeek at *
        omega
      refine ⟨(Date.isMonday_ofDay_iff hbefore).2 hmod', Date.ofDay (mondayOf today),
        Date.ofDay (mondayOf today - 1), (Date.isMonday_ofDay_iff hmonday).2 hmod, hweek, ?_, ?_,
        rfl⟩
      · rw [days, ← Date.ofDay_add, show mondayOf today - 7 + (7 : Nat) = mondayOf today by omega]
      · rw [← Date.ofDay_succ, Int.sub_add_cancel]
  | thisMonth => exact ⟨ofDay_monthStartOf today, rfl⟩

/-- After January of year 1 no month starts in it. -/
lemma le_monthStartOf (h : 31 ≤ today) : 31 ≤ monthStartOf today := by
  rw [← Date.toDay_ofDay today, Date.le_toDay_iff (Date.isReal_ofDay today)] at h
  rw [← Date.toDay_ofDay (monthStartOf today), Date.le_toDay_iff (Date.isReal_ofDay _),
    ofDay_monthStartOf]
  exact h

/-- Seen from 1 February of year 1 or a later day of the calendar, a range lies in the calendar, and
its last day is before the one it is seen from. -/
lemma days_inCalendar (h : 31 ≤ today) (name : RangeName) :
    (21 ≤ (name.days today).1 ∧ (name.days today).1 ≤ today) ∧
      ∀ last ∈ (name.days today).2, 21 ≤ last ∧ last < today := by
  have hmonday := mondayOf_spec today
  have hmonth := le_monthStartOf h
  have hlow : 21 ≤ (name.days today).1 := by
    unfold dayOfWeek at hmonday
    cases name <;> simp only [days] <;> omega
  obtain ⟨hfirst, hlast⟩ := name.days_le today
  refine ⟨⟨hlow, hfirst⟩, fun last hmem => ?_⟩
  have := hlast last hmem
  omega

end RangeName

/-! ## Readings at the ends -/

/-- A time on a date, down to the millisecond, as a reading of the clock. -/
def Date.reading (d : Date) (hour minute sec milli : Int) : Int :=
  d.toDay * dayLength + (((hour * 60 + minute) * 60 + sec) * 1000 + milli) * 1000

/-- The window from the first reading of a date to the last millisecond of another, if there is
another. -/
def Window.ofDates (z : Zone) (first : Date) (last : Option Date) : Except DateError Window := do
  let start ← z.instantOf (first.reading 0 0 0 0)
  let stop ← last.mapM fun d => z.instantOf (d.reading 23 59 59 999)
  return ⟨start, stop⟩

/-- The clock shows a reading at some instant. -/
def Zone.Shows (z : Zone) (w : Int) : Prop :=
  ∃ t, z.wallAt t = w

lemma Zone.wallAt_of_instantOf {t w : Int} (h : z.instantOf w = .ok t) (hshows : z.Shows w) :
    z.wallAt t = w := by
  rw [(eq_of_instantOf h).2, wallAt_sub_leadOf hshows]

lemma instantInDay_eq (hday : 0 ≤ day ∧ day < calendarDays) (time : Int) :
    instantInDay z day time = z.instantOf (day * dayLength + time) :=
  if_pos hday

/-- Where the clock shows the readings that a window is meant to start and end with, it shows them
at the ends of the window. -/
lemma Window.wallAt_of_ofDates (h : Window.ofDates z first last = .ok w) :
    (z.Shows (first.reading 0 0 0 0) → z.wallAt w.start = first.reading 0 0 0 0) ∧
      ∀ d ∈ last, ∃ stop ∈ w.stop,
        z.Shows (d.reading 23 59 59 999) → z.wallAt stop = d.reading 23 59 59 999 := by
  unfold ofDates at h
  simp only [bind_eq_ok_iff, mapM_eq_ok_iff, pure, Except.pure, Except.ok.injEq] at h
  obtain ⟨start, hstart, stop, ⟨hstop, -⟩, rfl⟩ := h
  refine ⟨Zone.wallAt_of_instantOf hstart, fun d hd => ?_⟩
  obtain ⟨t, ht, hinstant⟩ := hstop d hd
  exact ⟨t, ht, Zone.wallAt_of_instantOf hinstant⟩

/-- The window of a range is that of its dates. -/
lemma RangeName.window_eq_ofDates (h₁ : 31 ≤ today) (h₂ : today < calendarDays)
    (name : RangeName) : name.window z today = Window.ofDates z
      (Date.ofDay (name.days today).1) ((name.days today).2.map Date.ofDay) := by
  obtain ⟨hfirst, hlast⟩ := name.days_inCalendar h₁
  have hend : ∀ day : Int, day * dayLength + endOfDay
      = day * dayLength + (((23 * 60 + 59) * 60 + 59) * 1000 + 999) * 1000 := fun day => rfl
  unfold window Window.ofDates
  generalize name.days today = range at *
  obtain ⟨first, last⟩ := range
  dsimp only at *
  rw [instantInDay_eq (by omega), Date.reading, Date.toDay_ofDay]
  cases last with
  | none => rfl
  | some last =>
      obtain ⟨hday, hday'⟩ := hlast last rfl
      simp only [instantInDay_eq (show 0 ≤ last ∧ last < calendarDays by omega), Option.map_some,
        Option.mapM_some, Date.reading, Date.toDay_ofDay, hend]
      rfl

/-! ## Ranges seen from a moment -/

/-- The date of a moment on the local calendar. -/
def Moment.localDate (z : Zone) (now : Moment) : Except DateError Date :=
  Date.ofDay <$> now.localDay z

lemma Moment.localDay_of_localDate (h : now.localDate z = .ok d) :
    ∃ today, now.localDay z = .ok today ∧ Date.ofDay today = d :=
  map_eq_ok_iff.1 h

/-- A reading of the local clock has the date that it shows. -/
lemma Moment.localDate_wall (hd : d.IsReal) {time : Int} (h₁ : 0 ≤ time) (h₂ : time < dayLength) :
    (Moment.wall (d.toDay * dayLength + time)).localDate z = .ok d := by
  have hday : (d.toDay * dayLength + time) / dayLength = d.toDay := by
    unfold dayLength at *
    omega
  rw [localDate, localDay, hday]
  exact congrArg Except.ok (Date.ofDay_toDay hd)

/-- Of the moment that a name is seen from only the local day counts. -/
lemma namedWindow_congr {now' : Moment} (h : now'.localDay z = now.localDay z) (s : Text) :
    namedWindow z s now' = namedWindow z s now := by
  rw [namedWindow, namedWindow, h]

/-- **A named range is one of dates.**  Seen from a local date on or after 1 February of year 1, its
window is that from the first reading of its first date to the last millisecond of its last date,
where these are found on the calendar; and the clock shows these readings at the ends, if it ever
does.  Of the moment only the local date counts, be it read off the clock or known with an offset of
its own. -/
theorem namedWindow_calendar (hd : d.isValid) (hlate : d.year ≠ 1 ∨ d.month ≠ 1)
    (hnow : now.localDate z = .ok d) (name : RangeName) :
    (∃ first last, name.Spans d first last ∧ first.isValid ∧ (∀ e ∈ last, e.isValid) ∧
      namedWindow z name.text now = some <$> Window.ofDates z first last ∧
      ∀ w, Window.ofDates z first last = .ok w →
        (z.Shows (first.reading 0 0 0 0) → z.wallAt w.start = first.reading 0 0 0 0) ∧
        ∀ e ∈ last, ∃ stop ∈ w.stop,
          z.Shows (e.reading 23 59 59 999) → z.wallAt stop = e.reading 23 59 59 999) ∧
    (∀ s now', now'.localDate z = .ok d → namedWindow z s now' = namedWindow z s now) ∧
    ∀ time, 0 ≤ time → time < dayLength →
      (Moment.wall (d.toDay * dayLength + time)).localDate z = .ok d := by
  obtain ⟨today, hday, hdate⟩ := Moment.localDay_of_localDate hnow
  obtain ⟨hreal, hyear, -⟩ := Date.isValid_iff.1 hd
  obtain rfl : today = d.toDay := by rw [← hdate, Date.toDay_ofDay]
  have hfrom : 31 ≤ d.toDay := by
    have hmonth := hreal.month
    exact (Date.le_toDay_iff hreal).2 (by omega)
  have hbounds := Date.toDay_bounds hd
  obtain ⟨hfirst, hlast⟩ := name.days_inCalendar hfrom
  refine ⟨⟨Date.ofDay (name.days d.toDay).1, (name.days d.toDay).2.map Date.ofDay, ?_, ?_, ?_, ?_,
    fun w hw => Window.wallAt_of_ofDates hw⟩, fun s now' hnow' => ?_,
    fun time h₁ h₂ => Moment.localDate_wall hreal h₁ h₂⟩
  · have hspans := name.spans_days hfrom
    rwa [Date.ofDay_toDay hreal] at hspans
  · exact Date.isValid_ofDay.2 (by omega)
  · intro e he
    obtain ⟨last, hmem, rfl⟩ := Option.map_eq_some_iff.1 he
    have := hlast last hmem
    exact Date.isValid_ofDay.2 (by omega)
  · rw [namedWindow_text hday, name.window_eq_ofDates hfrom hbounds.2]
  · obtain ⟨other, hother, hdate'⟩ := Moment.localDay_of_localDate hnow'
    obtain rfl : other = d.toDay := by rw [← hdate', Date.toDay_ofDay]
    exact namedWindow_congr (hother.trans hday.symm) s

/-- Yesterday, seen from 1 March 2100, which follows 28 February: the instant of its first midnight
and the last microsecond of the day on the local clock give the same range. -/
theorem namedWindow_calendar_century :
    ∃ now now' first last w, Moment.read? "2100-03-01T05:00:00Z".text = some now ∧
      Moment.read? "2100-03-01T23:59:59.999999".text = some now' ∧
      RangeName.yesterday.Spans ⟨2100, 3, 1⟩ first last ∧
      Window.ofDates easternZone first last = .ok w ∧
      isoText w.start = "2100-02-28T05:00:00.000Z".text ∧
      w.stop.map isoText = some "2100-03-01T04:59:59.999Z".text ∧
      namedWindow easternZone RangeName.yesterday.text now = .ok (some w) ∧
      namedWindow easternZone RangeName.yesterday.text now' = .ok (some w) := by
  let midnight := Date.toDay ⟨2100, 3, 1⟩ * dayLength
  let now : Moment := .zoned (midnight + 18000 * second) 0
  let now' : Moment := .wall (midnight + (dayLength - 1))
  have hnow : now.localDate easternZone = .ok ⟨2100, 3, 1⟩ := by decide +kernel
  obtain ⟨⟨first, last, hspans, -, -, heq, -⟩, hsame, -⟩ :=
    namedWindow_calendar (d := ⟨2100, 3, 1⟩) (by decide) (by decide) hnow .yesterday
  have hvalue : namedWindow easternZone RangeName.yesterday.text now
      = .ok (some ⟨midnight - dayLength + 18000 * second,
          some (midnight + 18000 * second - 1000)⟩) := by
    decide +kernel
  obtain ⟨w, hw, hsome⟩ := map_eq_ok_iff.1 (heq.symm.trans hvalue)
  obtain rfl := Option.some.inj hsome
  exact ⟨now, now', first, last, _, by decide +kernel, by decide +kernel, hspans, hw,
    by decide +kernel, by decide +kernel, hvalue,
    (hsame _ now' (by decide +kernel)).trans hvalue⟩

end LogSearch
