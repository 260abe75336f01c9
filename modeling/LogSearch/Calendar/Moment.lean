import LogSearch.Calendar.Zone
import LogSearch.Text.Basic

/-!
# Moments and their text

A moment is given either as a reading of the local wall clock or as a clock reading with its own
offset from UTC.

* `Moment.toInstant` — the instant of a moment in a zone.
* `Moment.localDay` — the day that the local calendar shows.
* `isoText` — an instant in UTC, to the millisecond: `2026-10-17T22:00:00.000Z`.  Every text has
  the same length, so texts sort as the instants do.
-/

namespace LogSearch

/-- A point in time, as given. -/
inductive Moment where
  /-- A reading of the local clock. -/
  | wall (time : Int)
  /-- A clock reading and the offset from UTC of that clock, both in microseconds. -/
  | zoned (time : Int) (offset : Int)
  deriving DecidableEq

namespace Moment

/-- The instant of a moment. -/
def toInstant (z : Zone) : Moment → Except DateError Int
  | wall time => z.instantOf time
  | zoned time offset => Zone.checked (time - offset)

/-- The day number of a moment on the local calendar.  A reading of the local clock needs no
conversion. -/
def localDay (z : Zone) : Moment → Except DateError Int
  | wall time => .ok (time / dayLength)
  | zoned time offset => do
    let instant ← Zone.checked (time - offset)
    let wall ← Zone.checked (z.wallAt instant)
    return wall / dayLength

end Moment

/-! ## Text -/

/-- A number with zeros in front, to at least the given width. -/
def padded (width n : Nat) : Text :=
  let digits := digitsOf n
  List.replicate (width - digits.length) (chr '0') ++ digits

/-- A time to the second, the date and the clock separated by `T`. -/
def dateTimeText (time : Int) : Text :=
  let d := Date.ofDay (time / dayLength)
  let seconds := (time % dayLength / second).toNat
  padded 4 d.year.toNat ++ chr '-' :: padded 2 d.month ++ chr '-' :: padded 2 d.day ++
    chr 'T' :: padded 2 (seconds / 3600) ++ chr ':' :: padded 2 (seconds / 60 % 60) ++
    chr ':' :: padded 2 (seconds % 60)

/-- An instant in UTC with its milliseconds; what is finer is cut off. -/
def isoText (instant : Int) : Text :=
  dateTimeText instant ++ chr '.' :: padded 3 (instant % second / 1000).toNat ++ [chr 'Z']

/-- An instant in UTC with its microseconds, which are left out when there are none. -/
def preciseText (instant : Int) : Text :=
  let micros := (instant % second).toNat
  dateTimeText instant ++ (if micros = 0 then [] else chr '.' :: padded 6 micros) ++ [chr 'Z']

end LogSearch
