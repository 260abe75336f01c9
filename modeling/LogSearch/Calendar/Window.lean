import LogSearch.Calendar.Moment

/-!
# Named ranges of days

A date filter names its days relative to the current one: `today`, `yesterday`, `this-week`,
`last-week`, `this-month`.  Weeks start on Monday.

* `RangeName.days` — the first and the last day of a range; some ranges have no last day, since
  they reach up to now.
* `Window` — the instants between which a range lies.  Each end is resolved with the offset of its
  own day, so a range that spans a change of the clock still starts and ends at local midnight.
* `namedWindow` — the window of a name, if it is one of the five.
-/

namespace LogSearch

/-- The names of ranges. -/
inductive RangeName where
  | today | yesterday | thisWeek | lastWeek | thisMonth
  deriving DecidableEq

/-- The instants of a range; with no end it reaches up to now. -/
structure Window where
  start : Int
  stop : Option Int
  deriving DecidableEq

namespace RangeName

/-- All range names. -/
def all : List RangeName :=
  [today, yesterday, thisWeek, lastWeek, thisMonth]

/-- How a range is written in a query. -/
def text : RangeName → Text
  | today => "today".text
  | yesterday => "yesterday".text
  | thisWeek => "this-week".text
  | lastWeek => "last-week".text
  | thisMonth => "this-month".text

/-- The range with a given name. -/
def ofText? (s : Text) : Option RangeName :=
  all.find? (·.text == s)

/-- The first and the last day of a range as seen from a day. -/
def days (today : Int) : RangeName → Int × Option Int
  | .today => (today, none)
  | .yesterday => (today - 1, some (today - 1))
  | .thisWeek => (mondayOf today, none)
  | .lastWeek => (mondayOf today - 7, some (mondayOf today - 1))
  | .thisMonth => (monthStartOf today, none)

end RangeName

/-! ## From days to instants -/

/-- The last millisecond of a day, from its midnight. -/
def endOfDay : Int :=
  dayLength - 1000

/-- The instant so long after the midnight that a day starts with. -/
def instantInDay (z : Zone) (day : Int) (time : Int) : Except DateError Int :=
  if 0 ≤ day ∧ day < calendarDays then z.instantOf (day * dayLength + time)
  else .error .outOfRange

/-- The window of a range as seen from a local day.  The start is resolved before the end. -/
def RangeName.window (z : Zone) (today : Int) (name : RangeName) : Except DateError Window := do
  let (first, last) := name.days today
  let start ← instantInDay z first 0
  let stop ← match last with
    | none => pure none
    | some day => some <$> instantInDay z day endOfDay
  return ⟨start, stop⟩

/-- The window that a text names, seen from a moment.  The local day is found first, whether or
not the name is known. -/
def namedWindow (z : Zone) (name : Text) (now : Moment) : Except DateError (Option Window) := do
  let today ← now.localDay z
  match RangeName.ofText? name with
  | none => return none
  | some range => return some (← range.window z today)

end LogSearch
