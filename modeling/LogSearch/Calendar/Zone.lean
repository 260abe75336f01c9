import LogSearch.Calendar.Date

/-!
# Time zones

A zone has a standard offset from UTC and may have daylight time, which starts and ends every year
at a given week and weekday of a month, or on a given day of the year.  Instants and wall-clock
readings are both counted in microseconds from the first midnight of year 1, the former in UTC.

* `Change.seconds` — when a yearly change happens, on the clock in force before it.
* `Zone.IsPosix` — the zones that a one-line description can give, their changes kept from 1970 on.
* `Zone.offsetAt` — the offset at an instant.
* `Zone.offsetOf` — the offset of a reading of the wall clock.  A reading that occurs twice or not
  at all takes the larger of the two offsets.
* `Zone.instantOf` — the instant of a reading, or why it has none.
-/

namespace LogSearch

/-- Microseconds in a second. -/
abbrev second : Int := 1000000

/-- Microseconds in a day. -/
abbrev dayLength : Int := 86400000000

/-- Why a date or time cannot be computed. -/
inductive DateError where
  /-- A result would lie outside the years 1 to 9999. -/
  | outOfRange
  /-- Resolving a local time needs a clock reading in a year that the calendar does not have. -/
  | noSuchYear (year : Int)
  deriving DecidableEq

/-- The day of a year on which the clock is changed. -/
inductive ChangeDay where
  /-- The `week`-th given weekday of a month, the fifth meaning the last.  Sunday is day 0. -/
  | weekday (month week day : Nat)
  /-- The `n`-th day of a year, from 1, in which 29 February is not counted. -/
  | commonDay (n : Nat)
  /-- The `n`-th day of a year, from 0. -/
  | yearDay (n : Nat)
  deriving DecidableEq

/-- A yearly change of the clock: on some day, so many seconds after its midnight. -/
structure Change where
  rule : ChangeDay
  time : Int
  deriving DecidableEq

/-- Daylight time: its offset from UTC in seconds, and when it starts and ends.  The clock is
changed from the year `since` on; before, it is as the changes of that year leave it. -/
structure Daylight where
  offset : Int
  starts : Change
  ends : Change
  since : Int
  deriving DecidableEq

/-- A time zone: the standard offset from UTC in seconds, positive in the east, and daylight time
if the zone has any. -/
structure Zone where
  standard : Int
  daylight : Option Daylight
  deriving DecidableEq

/-- Coordinated universal time. -/
def Zone.utc : Zone := ⟨0, none⟩

/-! ## Yearly changes -/

/-- The day of a change.  One by weekday is counted in weeks from the first such weekday of the
month, and moved back a week at a time while it is past the end of the month. -/
def ChangeDay.day (rule : ChangeDay) (year : Int) : Int :=
  match rule with
  | weekday month week day =>
    let first := Date.toDay ⟨year, month, 1⟩
    let sunday := (dayOfWeek first + 1) % 7
    let lead := (day - sunday) % 7
    let last := (monthLength year month - 1 - lead) / 7
    first + lead + 7 * min ((week : Int) - 1) last
  | commonDay n => yearStart year + n - (if isLeap year && 60 ≤ n then 0 else 1)
  | yearDay n => yearStart year + n

/-- The day of a change. -/
def Change.day (c : Change) (year : Int) : Int :=
  c.rule.day year

/-- When a change happens, in seconds on the clock in force before it. -/
def Change.seconds (c : Change) (year : Int) : Int :=
  86400 * c.day year + c.time

namespace Daylight

/-- The instant at which daylight time starts in a year; until then the clock shows `standard`. -/
def startInstant (d : Daylight) (standard : Int) (year : Int) : Int :=
  (d.starts.seconds year - standard) * second

/-- The instant at which daylight time ends in a year. -/
def endInstant (d : Daylight) (year : Int) : Int :=
  (d.ends.seconds year - d.offset) * second

/-- The year whose changes count at an instant: the year of the instant in UTC, but none before the
first year with changes. -/
def ruleYear (d : Daylight) (instant : Int) : Int :=
  max d.since (yearOf (instant / dayLength))

/-- Whether daylight time is in force at an instant.  Where it starts later in the year than it
ends, it spans the new year. -/
def inForce (d : Daylight) (standard : Int) (instant : Int) : Bool :=
  let year := d.ruleYear instant
  let starts := d.startInstant standard year
  let ends := d.endInstant year
  if starts ≤ ends then starts ≤ instant && instant < ends
  else instant < ends || starts ≤ instant

end Daylight

/-! ## Descriptions -/

/-- Whether a description can name a day. -/
def ChangeDay.isPosix : ChangeDay → Bool
  | weekday month week day =>
    1 ≤ month && month ≤ 12 && 1 ≤ week && week ≤ 5 && day ≤ 6
  | commonDay n => 1 ≤ n && n ≤ 365
  | yearDay n => n ≤ 365

/-- Whether a description can name a change: its time is less than a week from its midnight. -/
def Change.isPosix (c : Change) : Bool :=
  c.rule.isPosix && -604800 < c.time && c.time < 604800

/-- The year from which on the changes of a description are kept. -/
def firstRuleYear : Int := 1970

/-- A zone that a description can give. -/
def Zone.IsPosix (z : Zone) : Prop :=
  ∀ d ∈ z.daylight, d.starts.isPosix ∧ d.ends.isPosix ∧ d.since = firstRuleYear

instance (z : Zone) : Decidable z.IsPosix :=
  inferInstanceAs (Decidable (∀ d ∈ z.daylight, _))

/-! ## Offsets -/

namespace Zone

/-- The offset from UTC, in seconds, at an instant. -/
def offsetAt (z : Zone) (instant : Int) : Int :=
  match z.daylight with
  | none => z.standard
  | some d => if d.inForce z.standard instant then d.offset else z.standard

/-- What the wall clock shows at an instant. -/
def wallAt (z : Zone) (instant : Int) : Int :=
  instant + z.offsetAt instant * second

/-- The offset of a wall-clock reading.  Only where the smaller offset alone fits is it taken: at
a repeated or skipped reading the larger one counts. -/
def offsetOf (z : Zone) (wall : Int) : Int :=
  match z.daylight with
  | none => z.standard
  | some d =>
    let large := max z.standard d.offset
    let small := min z.standard d.offset
    let fits (offset : Int) := z.offsetAt (wall - offset * second) = offset
    if fits small ∧ ¬ fits large then small else large

/-! ## Within the calendar -/

/-- The year of a time. -/
def yearOfTime (time : Int) : Int :=
  yearOf (time / dayLength)

/-- Whether a time lies in the years 1 to 9999. -/
def inCalendar (time : Int) : Bool :=
  0 ≤ time && time < calendarDays * dayLength

/-- A computed time, refused outside the calendar. -/
def checked (time : Int) : Except DateError Int :=
  if inCalendar time then .ok time else .error .outOfRange

/-- A clock reading consulted on the way, refused in a year outside the calendar. -/
def checkReading (wall : Int) : Except DateError Unit :=
  if inCalendar wall then .ok () else .error (.noSuchYear (yearOfTime wall))

/-- The instant of a wall-clock reading.  The zone is consulted at the instant of the same name in
UTC, then at the one that its offset there leads to, a day earlier if the clock shows the reading at
that one, and last at the one that the offset found there leads to; and the clock must have a
reading at each of them. -/
def instantOf (z : Zone) (wall : Int) : Except DateError Int := do
  checkReading (z.wallAt wall)
  let guess := wall - z.offsetAt wall * second
  checkReading (z.wallAt guess)
  let earlier := if z.wallAt guess = wall then guess - dayLength else guess
  checkReading (z.wallAt earlier)
  checkReading (z.wallAt (wall - z.offsetAt earlier * second))
  checked (wall - z.offsetOf wall * second)

end Zone

end LogSearch
