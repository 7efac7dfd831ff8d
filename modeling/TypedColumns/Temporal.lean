import TypedColumns.Calendar
import TypedColumns.Kind

/-!
What the slots of temporal columns hold, and their readings on the calendar. A slot can hold an
infinity or an instant off the calendar; such a reading is a fault.
-/
namespace TypedColumns

namespace Temporal

def microsPerDay : Int := 86400000000

inductive Fault where
  | infiniteDate
  | dateOverflow (days : Int)
  | dateOutOfRange (days : Int)
  | timeOutsideDay (micros : Int)
  | offsetOutOfRange
  | infiniteInstant (kind : Kind)
  | instantOutOfRange (kind : Kind) (raw : Int)
  | microsOverflow (kind : Kind) (raw : Int)
  | notTimestamp (kind : Kind)
deriving DecidableEq

def Fault.message : Fault → String
  | infiniteDate => "infinite DATE has no calendar representation"
  | dateOverflow days => s!"DATE {days} days is out of range"
  | dateOutOfRange days =>
    s!"DATE {days} days is out of range: julian_day must be in the range -1930999..=5373484"
  | timeOutsideDay micros => s!"TIME of {micros} microseconds is outside 00:00:00..24:00:00"
  | offsetOutOfRange => "seconds must be in the range -93599..=93599"
  | infiniteInstant kind => s!"infinite {kind.name} has no calendar representation"
  | instantOutOfRange kind raw => s!"{kind.name} value {raw} is out of range: " ++
      "timestamp must be in the range -377705116800..=253402300799"
  | microsOverflow kind raw => s!"{kind.name} value {raw} overflows microsecond precision"
  | notTimestamp kind => s!"{kind.name} is not a timestamp kind"

end Temporal

open Temporal

namespace Date

/-- The two infinities are the extreme slots of equal magnitude. -/
def slotFinite (days : Word .i32) : Bool := days.val != 2147483647 && days.val != -2147483647

/-- Day numbers are checked as Julian days in 32 bits, then against the calendar. -/
def ofSlot (days : Word .i32) : Except Fault Date :=
  if !slotFinite days then .error .infiniteDate
  else if 2147483647 < days.val + 2440588 then .error (.dateOverflow days.val)
  else match ofDay? days.val with
    | some date => .ok date
    | none => .error (.dateOutOfRange days.val)

def toSlot (date : Date) : Word .i32 :=
  ⟨date.day, by have := date.inRange; simp only [IntKind.Holds, IntKind.min, IntKind.max]; omega⟩

end Date

namespace ClockTime

/-- A slot counts microseconds; 24:00:00 is a slot but no clock time. -/
def ofSlot (micros : Word .i64) : Except Fault ClockTime :=
  if h : 0 ≤ micros.val ∧ micros.val < 86400000000 then
    .ok ⟨micros.val.toNat * 1000, by omega⟩
  else .error (.timeOutsideDay micros.val)

/-- Nanoseconds below a microsecond are dropped. -/
def toSlot (t : ClockTime) : Word .i64 :=
  ⟨t.nanos / 1000, by
    have := t.nanos_lt; simp only [IntKind.Holds, IntKind.min, IntKind.max]; omega⟩

end ClockTime

/-- A time of day in microseconds with an offset from UTC in seconds. -/
structure TimeTz where
  micros : Word .i64
  offset : Word .i32
deriving DecidableEq

namespace TimeTz

/-- Largest offset a slot holds, one second short of 16 hours. -/
def maxOffset : Int := 57599

/-- Microseconds in the high 40 bits and `maxOffset - offset` in the low 24, so that slots sort by
time and then from east to west. -/
def toBits (t : TimeTz) : Word .u64 :=
  .wrap .u64 (t.micros.val * 0x1000000 + (maxOffset - t.offset.val) % 0x1000000)

/-- 32 bits hold the distance of the offset from the largest one. -/
def Counted (t : TimeTz) : Prop := IntKind.i32.Holds (maxOffset - t.offset.val)

instance (t : TimeTz) : Decidable t.Counted := inferInstanceAs (Decidable (IntKind.Holds _ _))

/-- The slot, none if the offset cannot be counted from the largest one. -/
def toBits? (t : TimeTz) : Option (Word .u64) := if t.Counted then some t.toBits else none

def ofBits (bits : Word .u64) : TimeTz :=
  ⟨.wrap .i64 (bits.val / 0x1000000), .wrap .i32 (maxOffset - bits.val % 0x1000000)⟩

def utcOffset (t : TimeTz) : Except Fault UtcOffset :=
  match UtcOffset.ofSeconds? t.offset.val with
  | some offset => .ok offset
  | none => .error .offsetOutOfRange

end TimeTz

namespace Timestamp

/-- The two infinities are the extreme slots of equal magnitude, in every unit. -/
def slotFinite (raw : Word .i64) : Bool :=
  raw.val != 9223372036854775807 && raw.val != -9223372036854775807

/-- Nanoseconds in one step of a slot; kinds that are no timestamps count microseconds. -/
def step : Kind → Int
  | .timestamp unit => unit.nanoseconds
  | _ => 1000

/-- The UTC clock at a slot's instant. -/
def clockOfSlot (kind : Kind) (raw : Word .i64) : Except Fault DateTime :=
  if !slotFinite raw then .error (.infiniteInstant kind)
  else match DateTime.ofNanos? (raw.val * step kind) with
    | some clock => .ok clock
    | none => .error (.instantOutOfRange kind raw.val)

/-- A slot in microseconds: infinities stay as they are and nanoseconds are rounded down. -/
def microsOfSlot (kind : Kind) (raw : Word .i64) : Except Fault (Word .i64) :=
  if !slotFinite raw then .ok raw
  else match kind with
    | .timestamp unit =>
      match Word.ofInt? .i64 (raw.val * unit.nanoseconds / 1000) with
      | some micros => .ok micros
      | none => .error (.microsOverflow kind raw.val)
    | _ => .error (.notTimestamp kind)

/-- Microseconds of an instant, rounded down. -/
def microsOfInstant (dt : OffsetDateTime) : Word .i64 := .wrap .i64 (dt.instant / 1000)

end Timestamp

/-- Calendar months, whole days and microseconds, none converted into another. -/
structure Interval where
  months : Word .i32
  days : Word .i32
  micros : Word .i64
deriving DecidableEq

namespace Interval

def zero : Interval := ⟨0, 0, 0⟩

inductive Fault where
  | months (months : Int)
  | overflow
deriving DecidableEq

def Fault.message : Fault → String
  | months n => s!"INTERVAL with {n} months has no fixed duration"
  | overflow => "INTERVAL overflows a duration"

/-- Months have no fixed length. The microseconds of the days, and then the sum, have to fit a
64-bit count, which is divided into seconds, rounded down, and what is left of it. -/
def toDuration (i : Interval) : Except Fault Duration :=
  if i.months.val ≠ 0 then .error (.months i.months.val)
  else
    let days := i.days.val * microsPerDay
    let total := days + i.micros.val
    if IntKind.i64.Holds days ∧ IntKind.i64.Holds total then
      .ok (.ofParts (total / 1000000) (total % 1000000 * 1000))
    else .error .overflow

end Interval
end TypedColumns
