import TypedColumns.Text.Numeral

/-!
The proleptic Gregorian calendar from -9999-01-01 to 9999-12-31, clock times of one day, and
date-times with and without an offset from UTC. Dates count days and times count nanoseconds; years,
months and hours are computed for text.
-/
namespace TypedColumns

/-- A day, counted from 1970-01-01. -/
structure Date where
  day : Int
  inRange : -4371587 ≤ day ∧ day ≤ 2932896
deriving DecidableEq

structure Civil where
  year : Int
  month : Int
  day : Int
deriving DecidableEq

namespace Civil

def isLeap (year : Int) : Bool := year % 4 = 0 && (year % 100 ≠ 0 || year % 400 = 0)

def monthLength (year month : Int) : Int :=
  if month = 2 then if isLeap year then 29 else 28
  else if month = 4 ∨ month = 6 ∨ month = 9 ∨ month = 11 then 30
  else 31

def Exists (c : Civil) : Prop :=
  -9999 ≤ c.year ∧ c.year ≤ 9999 ∧ 1 ≤ c.month ∧ c.month ≤ 12 ∧
    1 ≤ c.day ∧ c.day ≤ monthLength c.year c.month

instance (c : Civil) : Decidable c.Exists := inferInstanceAs (Decidable (_ ∧ _))

/-- Days from 1970-01-01. Years begin in March here, so that a leap day ends its year. -/
def dayNumber (c : Civil) : Int :=
  let year := if c.month ≤ 2 then c.year - 1 else c.year
  let month := if c.month ≤ 2 then c.month + 9 else c.month - 3
  let yearOfEra := year % 400
  let dayOfYear := (153 * month + 2) / 5 + c.day - 1
  let dayOfEra := yearOfEra * 365 + yearOfEra / 4 - yearOfEra / 100 + dayOfYear
  year / 400 * 146097 + dayOfEra - 719468

def ofDayNumber (n : Int) : Civil :=
  let z := n + 719468
  let dayOfEra := z % 146097
  let yearOfEra := (dayOfEra - dayOfEra / 1460 + dayOfEra / 36524 - dayOfEra / 146096) / 365
  let dayOfYear := dayOfEra - (365 * yearOfEra + yearOfEra / 4 - yearOfEra / 100)
  let month := (5 * dayOfYear + 2) / 153
  let day := dayOfYear - (153 * month + 2) / 5 + 1
  let year := yearOfEra + z / 146097 * 400
  if month < 10 then ⟨year, month + 3, day⟩ else ⟨year + 1, month - 9, day⟩

end Civil

namespace Date

def ofDay? (day : Int) : Option Date :=
  if h : -4371587 ≤ day ∧ day ≤ 2932896 then some ⟨day, h⟩ else none

def ofCivil? (c : Civil) : Option Date := if c.Exists then ofDay? c.dayNumber else none

def civil (date : Date) : Civil := Civil.ofDayNumber date.day

def epoch : Date := ⟨0, by decide⟩

def text (date : Date) : String :=
  let c := date.civil
  Numeral.signed (c.year < 0) (Numeral.padded 4 c.year.natAbs) ++ "-" ++
    Numeral.padded 2 c.month.toNat ++ "-" ++ Numeral.padded 2 c.day.toNat

end Date

/-- Nanoseconds since midnight, below one day. -/
structure ClockTime where
  nanos : Nat
  nanos_lt : nanos < 86400000000000
deriving DecidableEq

namespace ClockTime

def ofNanos? (nanos : Nat) : Option ClockTime :=
  if h : nanos < 86400000000000 then some ⟨nanos, h⟩ else none

def midnight : ClockTime := ⟨0, by decide⟩

def hour (t : ClockTime) : Nat := t.nanos / 3600000000000
def minute (t : ClockTime) : Nat := t.nanos / 60000000000 % 60
def second (t : ClockTime) : Nat := t.nanos / 1000000000 % 60
def subsecond (t : ClockTime) : Nat := t.nanos % 1000000000

def ofParts? (hour minute second nanos : Nat) : Option ClockTime :=
  if hour < 24 ∧ minute < 60 ∧ second < 60 ∧ nanos < 1000000000 then
    ofNanos? (((hour * 60 + minute) * 60 + second) * 1000000000 + nanos)
  else none

/-- Digits of a fraction of a second without trailing zeros, one at least. -/
def fractionDigits (nanos : Nat) : String :=
  let digits := (Numeral.padded 9 nanos).toList
  match (digits.reverse.dropWhile (· == '0')).reverse with
  | [] => "0"
  | kept => String.ofList kept

def text (t : ClockTime) : String :=
  toString t.hour ++ ":" ++ Numeral.padded 2 t.minute ++ ":" ++ Numeral.padded 2 t.second ++ "." ++
    fractionDigits t.subsecond

end ClockTime

/-- A date with a time of day. -/
structure DateTime where
  date : Date
  time : ClockTime
deriving DecidableEq

namespace DateTime

def epoch : DateTime := ⟨Date.epoch, ClockTime.midnight⟩

/-- Nanoseconds since 1970-01-01 00:00 of the same clock. -/
def nanos (dt : DateTime) : Int := dt.date.day * 86400000000000 + dt.time.nanos

def ofNanos? (n : Int) : Option DateTime :=
  (Date.ofDay? (n / 86400000000000)).map fun date =>
    ⟨date, (n % 86400000000000).toNat, by omega⟩

theorem ofNanos?_nanos (dt : DateTime) : ofNanos? dt.nanos = some dt := by
  obtain ⟨⟨day, hd⟩, ⟨n, hn⟩⟩ := dt
  have h1 : (day * 86400000000000 + (n : Int)) / 86400000000000 = day := by omega
  have h2 : (day * 86400000000000 + (n : Int)) % 86400000000000 = n := by omega
  simp [ofNanos?, nanos, Date.ofDay?, h1, h2, hd]

def text (dt : DateTime) : String := dt.date.text ++ " " ++ dt.time.text

end DateTime

/-- Seconds east of UTC, less than 26 hours either way. -/
structure UtcOffset where
  seconds : Int
  inRange : -93599 ≤ seconds ∧ seconds ≤ 93599
deriving DecidableEq

namespace UtcOffset

def utc : UtcOffset := ⟨0, by decide⟩

def ofSeconds? (seconds : Int) : Option UtcOffset :=
  if h : -93599 ≤ seconds ∧ seconds ≤ 93599 then some ⟨seconds, h⟩ else none

def text (offset : UtcOffset) : String :=
  let s := offset.seconds.natAbs
  (if offset.seconds < 0 then "-" else "+") ++ Numeral.padded 2 (s / 3600) ++ ":" ++
    Numeral.padded 2 (s / 60 % 60) ++ ":" ++ Numeral.padded 2 (s % 60)

end UtcOffset

/-- A clock reading at an offset from UTC. -/
structure OffsetDateTime where
  clock : DateTime
  offset : UtcOffset
deriving DecidableEq

namespace OffsetDateTime

def utc (clock : DateTime) : OffsetDateTime := ⟨clock, UtcOffset.utc⟩

/-- Nanoseconds since the Unix epoch. -/
def instant (dt : OffsetDateTime) : Int := dt.clock.nanos - dt.offset.seconds * 1000000000

/-- Two readings of one instant are equal. -/
def equal (a b : OffsetDateTime) : Bool := a.instant == b.instant

def text (dt : OffsetDateTime) : String := dt.clock.text ++ " " ++ dt.offset.text

end OffsetDateTime

/-- A length of time in nanoseconds. -/
structure Duration where
  nanos : Int
deriving DecidableEq

namespace Duration

/-- Seconds and nanoseconds together, of whatever signs. -/
def ofParts (seconds nanos : Int) : Duration := ⟨seconds * 1000000000 + nanos⟩

def wholeSeconds (d : Duration) : Int := d.nanos.tdiv 1000000000
def subsecond (d : Duration) : Int := d.nanos.tmod 1000000000

/-- The parts that are not zero, from days down to nanoseconds. -/
def text (d : Duration) : String :=
  let n := d.nanos.natAbs
  if n = 0 then "0s"
  else
    let parts := [(n / 86400000000000, "d"), (n / 3600000000000 % 24, "h"),
      (n / 60000000000 % 60, "m"), (n / 1000000000 % 60, "s"), (n / 1000000 % 1000, "ms"),
      (n / 1000 % 1000, "µs"), (n % 1000, "ns")]
    let shown := parts.filter fun part => part.1 != 0
    Numeral.signed (d.nanos < 0) (String.join (shown.map fun part => toString part.1 ++ part.2))

end Duration
end TypedColumns
