import LogSearch.Calendar.Moment
import LogSearch.Number.Numeral

/-!
# Reading moments and time zones

* `Moment.read?` reads `YYYY-MM-DDTHH:MM:SS`, a fraction of up to six digits, and `Z` or an offset
  `+HH:MM`, which may have seconds and a fraction of its own.  Without an offset the moment is a
  reading of the local clock.
* `Zone.read?` reads the usual one-line description of a zone, such as
  `EST5EDT,M3.2.0,M11.1.0`: offsets count hours west of Greenwich, daylight time is one hour ahead
  unless it has an offset of its own, and a change happens at two o'clock unless it says when.
  Every zone that is read is one that a description can give (`Zone.isPosix_of_read?`).
-/

namespace LogSearch

-- Powers are those of natural numbers, whatever algebra is in scope.
attribute [local instance (high)] instPowNat

/-! ## Pieces -/

/-- Reads exactly so many ASCII digits. -/
def readDigits? (count : Nat) (s : Text) : Option (Nat × Text) :=
  let digits := s.take count
  if digits.length = count ∧ digits.all CodePoint.isDigit then
    some (ofDigits (digits.map (·.toNat - 0x30)), s.drop count)
  else none

/-- Reads the ASCII digits at the start of a text, at least one. -/
def readNumeral? (s : Text) : Option (Nat × Text) :=
  let count := (s.takeWhile CodePoint.isDigit).length
  if count = 0 then none else readDigits? count s

/-- Reads one given character. -/
def readChar? (c : CodePoint) : Text → Option Text
  | d :: s => if d = c then some s else none
  | [] => none

/-- Reads a point and a fraction of a second with up to six digits, in microseconds; no point means
no fraction. -/
def readFraction? (s : Text) : Option (Nat × Text) :=
  match s with
  | chr '.' :: r =>
    let count := (r.takeWhile CodePoint.isDigit).length
    if count = 0 ∨ 6 < count then none
    else (readDigits? count r).map fun (n, rest) => (n * 10 ^ (6 - count), rest)
  | _ => some (0, s)

/-! ## Moments -/

namespace Moment

/-- Reads the date and the clock, in microseconds. -/
def readTime? (s : Text) : Option (Int × Text) := do
  let (year, s) ← readDigits? 4 s
  let (month, s) ← readDigits? 2 (← readChar? (chr '-') s)
  let (day, s) ← readDigits? 2 (← readChar? (chr '-') s)
  let (hour, s) ← readDigits? 2 (← readChar? (chr 'T') s)
  let (minute, s) ← readDigits? 2 (← readChar? (chr ':') s)
  let (sec, s) ← readDigits? 2 (← readChar? (chr ':') s)
  let (fraction, s) ← readFraction? s
  let date : Date := ⟨year, month, day⟩
  if date.isValid && hour < 24 && minute < 60 && sec < 60 then
    let seconds : Int := (hour * 60 + minute) * 60 + sec
    some (date.toDay * dayLength + seconds * second + fraction, s)
  else none

/-- Reads the size of an offset from UTC, in microseconds.  An offset below a second is none. -/
def readOffset? (s : Text) : Option (Int × Text) := do
  let (hour, s) ← readDigits? 2 s
  let (minute, s) ← readDigits? 2 (← readChar? (chr ':') s)
  let minutes : Int := (hour * 60 + minute : Nat)
  match s with
  | chr ':' :: r =>
    let (sec, r) ← readDigits? 2 r
    let (fraction, r) ← readFraction? r
    let seconds := minutes * 60 + sec
    some (if seconds = 0 then 0 else seconds * second + fraction, r)
  | _ => some (minutes * 60 * second, s)

/-- Reads a moment. -/
def read? (s : Text) : Option Moment := do
  let (time, rest) ← readTime? s
  match rest with
  | [] => some (.wall time)
  | [chr 'Z'] => some (.zoned time 0)
  | sign :: r =>
    let (size, left) ← readOffset? r
    if !left.isEmpty then none
    else if sign = chr '+' then some (.zoned time size)
    else if sign = chr '-' then some (.zoned time (-size))
    else none

end Moment

/-! ## Zones -/

namespace Zone

/-- Skips the abbreviation of a clock: letters, or anything between angle brackets. -/
def skipName? : Text → Option Text
  | chr '<' :: s => readChar? (chr '>') (s.dropWhile (· ≠ chr '>'))
  | s => if s.head?.any CodePoint.isAlpha then some (s.dropWhile CodePoint.isAlpha) else none

/-- Reads hours, minutes and seconds, of which only the hours are needed, in seconds. -/
def readClock? (s : Text) : Option (Int × Text) := do
  let (hours, s) ← readNumeral? s
  match s with
  | chr ':' :: r =>
    let (minutes, r) ← readNumeral? r
    match r with
    | chr ':' :: q =>
      let (seconds, q) ← readNumeral? q
      some (((hours * 60 + minutes) * 60 + seconds : Nat), q)
    | _ => some (((hours * 60 + minutes) * 60 : Nat), r)
  | _ => some ((hours * 3600 : Nat), s)

/-- Reads a clock with an optional sign. -/
def readSignedClock? (s : Text) : Option (Int × Text) :=
  let (negative, s) := Numeral.splitSign s
  (readClock? s).map fun (n, rest) => (if negative then -n else n, rest)

/-- Reads the day of a yearly change: `Mmonth.week.weekday`, `Jn` without leap days, or `n`. -/
def readChangeDay? : Text → Option (ChangeDay × Text)
  | chr 'M' :: s => do
    let (month, s) ← readNumeral? s
    let (week, s) ← readNumeral? (← readChar? (chr '.') s)
    let (day, s) ← readNumeral? (← readChar? (chr '.') s)
    some (.weekday month week day, s)
  | chr 'J' :: s => (readNumeral? s).map fun (n, s) => (.commonDay n, s)
  | s => (readNumeral? s).map fun (n, s) => (.yearDay n, s)

/-- Reads the time of a change after `/`; it is two o'clock if there is none. -/
def readChangeTime? : Text → Option (Int × Text)
  | chr '/' :: s => readSignedClock? s
  | s => some (7200, s)

/-- Reads a yearly change, its day and its time. -/
def readChange? (s : Text) : Option (Change × Text) := do
  let (rule, s) ← readChangeDay? s
  let (time, s) ← readChangeTime? s
  let change : Change := ⟨rule, time⟩
  if change.isPosix then some (change, s) else none

theorem isPosix_of_readChange? {s r : Text} {c : Change} (h : readChange? s = some (c, r)) :
    c.isPosix := by
  simp only [readChange?, Option.bind_eq_bind, Option.bind_eq_some_iff] at h
  obtain ⟨_, -, _, -, h⟩ := h
  split at h
  · next hposix =>
    obtain ⟨rfl, -⟩ := Prod.mk.inj (Option.some.inj h)
    exact hposix
  · cases h

/-- Reads the two changes of a year, the second at the end of the text. -/
def readChanges? (s : Text) : Option (Change × Change) := do
  let (starts, s) ← readChange? (← readChar? (chr ',') s)
  let (ends, s) ← readChange? (← readChar? (chr ',') s)
  if s.isEmpty then some (starts, ends) else none

/-- Reads the description of a zone. -/
def read? (s : Text) : Option Zone := do
  let (west, s) ← readSignedClock? (← skipName? s)
  if s.isEmpty then some ⟨-west, none⟩
  else
    let s ← skipName? s
    let (daylightWest, s) := (readSignedClock? s).getD (west - 3600, s)
    let (starts, ends) ← readChanges? s
    some ⟨-west, some ⟨-daylightWest, starts, ends, firstRuleYear⟩⟩

/-- Every zone that is read is one that a description can give. -/
theorem isPosix_of_read? {s : Text} {z : Zone} (h : read? s = some z) : z.IsPosix := by
  simp only [read?, readChanges?, Option.bind_eq_bind, Option.bind_eq_some_iff] at h
  obtain ⟨_, -, ⟨west, rest⟩, -, h⟩ := h
  rintro d hd
  split at h
  · obtain rfl := Option.some.inj h
    cases hd
  · simp only [Option.bind_eq_some_iff] at h
    obtain ⟨_, -, ⟨starts, ends⟩, ⟨_, -, ⟨c, _⟩, hstarts, _, -, ⟨c', _⟩, hends, hlast⟩, h⟩ := h
    obtain rfl := Option.some.inj h
    split at hlast
    · obtain ⟨rfl, rfl⟩ := Prod.mk.inj (Option.some.inj hlast)
      obtain rfl := Option.some.inj hd
      exact ⟨isPosix_of_readChange? hstarts, isPosix_of_readChange? hends, rfl⟩
    · cases hlast

end Zone

end LogSearch
