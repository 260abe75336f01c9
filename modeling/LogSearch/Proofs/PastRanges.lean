import LogSearch.Proofs.NamedDays
import LogSearch.Proofs.SpacedChanges

/-!
# Named ranges lie in the past

The ends of a range are readings of the clock, and each is turned into an instant with a lead of
its own.  So the instants need not be in the order of the readings: where the clock has passed a
reading, the instant that is taken for the reading may still be to come.  That takes a larger lead
which comes and goes around the reading, and with changes more than two days apart there is none.

* `Zone.sub_leadOf_le` — where the clock has passed a midnight, the instant taken for it is over.
* `namedWindow_past` — a range starts before now, and where it has an end, it ends after its start
  and before now.
* `namedWindow_to_come` — that takes changes which do not leave their years.
-/

namespace LogSearch

variable {z : Zone} {name : RangeName} {today first last time offset t w : Int}

/-! ## Readings that the clock has passed -/

namespace Zone

/-- Where the clock shows a midnight or the last millisecond before one, or has passed it, the
instant taken for that reading is now or over. -/
lemma sub_leadOf_le (hz : z.WithinDay) (hspaced : ∀ d ∈ z.daylight, d.Spaced z.standard)
    (hnear : z.most - z.least < dayLength) (day : Int) (hw : day * dayLength - 1000 ≤ w)
    (hw' : w ≤ day * dayLength) : (w ≤ z.wallAt t → w - z.leadOf w ≤ t) ∧
      (w < z.wallAt t → w - z.leadOf w < t) := by
  have hor := z.lead_eq t
  have hle := z.least_le_most
  rw [wallAt_eq]
  by_cases hof : z.lead (w - z.least) = z.least ∧ z.lead (w - z.most) ≠ z.most
  · rw [z.leadOf_eq, if_pos hof]
    have hx := (z.lead_eq (w - z.most)).resolve_left hof.2
    have hlead : w - z.most ≤ t → t ≤ w - z.least → z.lead t = z.least :=
      lead_eq_least_of_spaced hz hspaced hnear hw hw' hx hof.1
    omega
  · rw [z.leadOf_eq, if_neg hof]
    omega

/-- A day that has started, started before now. -/
lemma dayStart_le (hz : z.WithinDay) (hspaced : ∀ d ∈ z.daylight, d.Spaced z.standard)
    (hnear : z.most - z.least < dayLength) (h : first ≤ z.wallAt t / dayLength) :
    z.dayStart first ≤ t := by
  refine (sub_leadOf_le hz hspaced hnear first (by omega) (by omega)).1 ?_
  unfold dayLength at *
  omega

/-- The last millisecond of a day that is over, is over. -/
lemma dayEnd_lt (hz : z.WithinDay) (hspaced : ∀ d ∈ z.daylight, d.Spaced z.standard)
    (hnear : z.most - z.least < dayLength) (h : last < z.wallAt t / dayLength) :
    z.dayEnd last - 1000 < t := by
  have hread : (last + 1) * dayLength - 1000 < z.wallAt t := by
    unfold dayLength at *
    omega
  have hend := (sub_leadOf_le hz hspaced hnear (last + 1) (by omega) (by omega)).2 hread
  unfold dayEnd
  omega

/-- A day has a start and a last millisecond in this order, and so have days that follow one
another. -/
lemma dayStart_lt_dayEnd (hnear : z.most - z.least < dayLength) (h : first ≤ last) :
    z.dayStart first < z.dayEnd last - 1000 := by
  have hstart := z.leadOf_bounds (first * dayLength)
  have hend := z.leadOf_bounds ((last + 1) * dayLength - 1000)
  have hmost := z.second_dvd_most
  have hleast := z.second_dvd_least
  unfold dayStart dayEnd second dayLength at *
  omega

end Zone

/-! ## Ranges -/

/-- The day that the clock shows at an aware moment. -/
lemma day_of_localDay_zoned (h : (Moment.zoned time offset).localDay z = .ok today) :
    today = z.wallAt (time - offset) / dayLength := by
  obtain ⟨instant, hinstant, h⟩ := bind_eq_ok_iff.1 h
  obtain ⟨wall, hwall, h⟩ := bind_eq_ok_iff.1 h
  obtain ⟨-, rfl⟩ := Zone.checked_eq_ok_iff.1 hinstant
  obtain ⟨-, rfl⟩ := Zone.checked_eq_ok_iff.1 hwall
  exact (Except.ok.inj h).symm

/-- **Named ranges lie in the past.**  Let the yearly changes of a zone be more than two days apart
and not leave their years, as at hours from 0 to 24 they never do.  Let its two offsets be hours
apart, less than a day, and let an aware moment be in the years 2 to 9998 on its clock.  Then every
named range has a window, which starts no later than now; yesterday and last week, and no other
ranges, have an end, which is after the start and before now.  This holds too where the reading of
an end is skipped or repeated, and in a repeated hour. -/
theorem namedWindow_past (hz : z.WithinDay) (hspaced : ∀ d ∈ z.daylight, d.Spaced z.standard)
    (hnear : z.most - z.least < dayLength)
    (hday : (Moment.zoned time offset).localDay z = .ok today) (h₁ : 2 ≤ yearOf today)
    (h₂ : yearOf today ≤ 9998) (name : RangeName) :
    ∃ w, namedWindow z name.text (.zoned time offset) = .ok (some w) ∧
      w.start ≤ time - offset ∧ (w.stop.isSome ↔ name = .yesterday ∨ name = .lastWeek) ∧
      ∀ stop ∈ w.stop, w.start < stop ∧ stop < time - offset := by
  have htoday := day_of_localDay_zoned hday
  obtain ⟨hfirst, hlast⟩ := RangeName.days_le today name
  refine ⟨_, namedWindow_eq hz hday h₁ h₂ name, ?_, ?_, ?_⟩
  · exact Zone.dayStart_le hz hspaced hnear (htoday ▸ hfirst)
  · cases name <;> simp [RangeName.span, RangeName.days]
  · intro stop hstop
    obtain ⟨last, hmem, rfl⟩ := Option.map_eq_some_iff.1 hstop
    obtain ⟨hle, hlt⟩ := hlast last hmem
    exact ⟨Zone.dayStart_lt_dayEnd hnear hle, Zone.dayEnd_lt hz hspaced hnear (htoday ▸ hlt)⟩

/-- Yesterday, seen half an hour after a repeated hour before midnight: it ends with the first pass
of that hour. -/
theorem namedWindow_past_repeated_hour :
    ∃ now today w stop, Moment.read? "2027-02-21T03:30:00Z".text = some (.zoned now 0) ∧
      (Moment.zoned now 0).localDay southernZone = .ok today ∧
      today = Date.toDay ⟨2027, 2, 21⟩ ∧
      namedWindow southernZone RangeName.yesterday.text (.zoned now 0) = .ok (some w) ∧
      w.stop = some stop ∧ isoText w.start = "2027-02-20T02:00:00.000Z".text ∧
      isoText stop = "2027-02-21T01:59:59.999Z".text ∧ w.start < stop ∧ stop < now := by
  have hz : southernZone.WithinDay := by decide
  have hspaced : ∀ d ∈ southernZone.daylight, d.Spaced southernZone.standard := by
    rintro d ⟨⟩
    exact Daylight.spaced_of_isPlain
      (Change.isPlain_of_weekday (by decide) (by decide) (by decide) _)
      (Change.isPlain_of_weekday (by decide) (by decide) (by decide) _)
      (Change.inItsYear_of_time (by decide) (by decide) (by decide))
      (Change.inItsYear_of_time (by decide) (by decide) (by decide))
      (Or.inr (ChangeDay.weekday_add_le (by decide) (by decide) (by decide) (by decide)
        (by decide))) (by decide) (by decide) (by decide) (by decide)
  let today := Date.toDay ⟨2027, 2, 21⟩
  let now := today * dayLength + 12600 * second
  have hday : (Moment.zoned now 0).localDay southernZone = .ok today := by decide +kernel
  obtain ⟨w, hw, -, -, hend⟩ := namedWindow_past hz hspaced (by decide) hday (by decide +kernel)
    (by decide +kernel) .yesterday
  have hvalue : namedWindow southernZone RangeName.yesterday.text (.zoned now 0)
      = .ok (some ⟨(today - 1) * dayLength + 7200 * second,
          some (today * dayLength + 7200 * second - 1000)⟩) := by
    decide +kernel
  obtain rfl := Option.some.inj (Except.ok.inj (hw.symm.trans hvalue))
  obtain ⟨hlt, hlt'⟩ := hend _ rfl
  exact ⟨now, today, _, _, by decide +kernel, hday, rfl, hw, rfl, by decide +kernel,
    by decide +kernel, hlt, hlt'⟩

/-- Daylight time from three days after the last Friday of December, at three o'clock, to half past
one on the first Saturday of January. -/
def newYearZone : Zone :=
  ⟨-3600, some ⟨3600, ⟨.weekday 12 5 5, 270000⟩, ⟨.weekday 1 1 6, 5400⟩, firstRuleYear⟩⟩

/-- The Saturday is the day after the Friday, or a week later. -/
lemma newYearZone_apart : ∀ d ∈ newYearZone.daylight, d.Apart newYearZone.standard := by
  rintro d ⟨⟩ year year'
  have hfriday := ChangeDay.dayOfWeek_weekday 12 5 5 year
  have hsaturday := ChangeDay.dayOfWeek_weekday 1 1 6 year'
  have hdecember := @ChangeDay.firstDay_bounds 12 5 (by decide) (by decide) (by decide) 5 year
  have hjanuary := @ChangeDay.firstDay_bounds 1 1 (by decide) (by decide) (by decide) 6 year'
  have hlast : (ChangeDay.firstDay 12 5 (isLeap year) : Int)
      = yearStart (year + 1) - yearStart year - 7 := by
    have hleap : ChangeDay.firstDay 12 5 (isLeap year) = if isLeap year then 359 else 358 := by
      cases isLeap year <;> rfl
    rw [yearStart_succ, hleap]
    split <;> omega
  have hfirst : ChangeDay.firstDay 1 1 (isLeap year') = 0 := by
    cases isLeap year' <;> rfl
  rw [hlast] at hdecember
  rw [hfirst] at hjanuary
  have hlength := yearStart_succ_bounds year
  have hlength' := yearStart_succ_bounds (year + 1)
  unfold dayOfWeek at hfriday hsaturday
  unfold Daylight.startInstant Daylight.endInstant Change.seconds Change.day newYearZone second
    dayLength
  dsimp only
  rcases Int.lt_trichotomy year' (year + 1) with hlt | rfl | hgt
  · have := yearStart_mono (show year' ≤ year by omega)
    omega
  · omega
  · have := yearStart_mono (Int.add_one_le_of_lt hgt)
    omega

/-- **A range that starts after now.**  The changes of this zone are more than two days apart, but
the one in December leaves its year.  So its clock is put forward with the new year in UTC, which no
rule asks for, and back half an hour later: it skips midnight, shows a quarter past one on the first
day of the year, and shows midnight in the end.  Seen from there, that day starts later, and so does
the last one end later. -/
theorem namedWindow_to_come :
    ∃ now today w w' stop, Zone.read? "XST1XDT-1,M12.5.5/75,M1.1.6/1:30".text = some newYearZone ∧
      newYearZone.WithinDay ∧ newYearZone.most - newYearZone.least = 7200 * second ∧
      (∀ d ∈ newYearZone.daylight, d.Apart newYearZone.standard) ∧
      Moment.read? "2028-01-01T00:15:00Z".text = some (.zoned now 0) ∧
      (Moment.zoned now 0).localDay newYearZone = .ok today ∧ 2 ≤ yearOf today ∧
      yearOf today ≤ 9998 ∧
      namedWindow newYearZone RangeName.today.text (.zoned now 0) = .ok (some w) ∧
      now < w.start ∧
      namedWindow newYearZone RangeName.yesterday.text (.zoned now 0) = .ok (some w') ∧
      w'.stop = some stop ∧ now < stop := by
  let today := Date.toDay ⟨2028, 1, 1⟩
  refine ⟨today * dayLength + 900 * second, today, ⟨today * dayLength + 3600 * second, none⟩,
    ⟨(today - 1) * dayLength + 3600 * second, some (today * dayLength + 3600 * second - 1000)⟩,
    today * dayLength + 3600 * second - 1000, by decide +kernel, by decide, by decide,
    newYearZone_apart, ?_⟩
  decide +kernel

end LogSearch
